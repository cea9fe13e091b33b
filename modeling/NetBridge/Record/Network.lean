import NetBridge.Network.Layer

/-!
# Networks as records

How attributes, layers, arrays and weights are given and answered as records of named values.
-/

namespace NetBridge.Record

def hexDigit? (c : Char) : Option Nat :=
  let n := c.toNat
  if 48 ≤ n && n ≤ 57 then some (n - 48)
  else if 97 ≤ n && n ≤ 102 then some (n - 87)
  else if 65 ≤ n && n ≤ 70 then some (n - 55)
  else none

def bytesOfHex : List Char → List UInt8
  | a :: b :: r =>
    match hexDigit? a, hexDigit? b with
    | some x, some y => UInt8.ofNat (x * 16 + y) :: bytesOfHex r
    | _, _ => bytesOfHex r
  | _ => []

def hexByte (b : UInt8) : String := Text.hexPadded 2 b.toNat

def hex (bs : List UInt8) : String := String.join (bs.map hexByte)

variable (v : Value)

def textOf (name : String) : String :=
  match v.fieldD name with
  | .text s => s
  | _ => ""

def textsOf : List String :=
  v.elems.filterMap fun
    | .text s => some s
    | _ => none

def floatOf : Value → Except Fault Float
  | .text s => orFault .value (Decimal.readFloat? s)
  | v => v.toFloat

def shapeOf : Except Fault (List Int) := v.elems.mapM int64Of

def bytesOf : Value → Except Fault (List UInt8)
  | .text s => .ok (Text.encodeUtf8 s)
  | .bytes bs => .ok bs
  | _ => .error .kind

def literalOf : Except Fault LiteralTensor := do
  return {
    elem := (← ((v.field? "dtype").getD (.int 1)).toInt)
    dims := (← shapeOf (v.fieldD "shape"))
    floats := (← (v.fieldD "float_val").elems.mapM fun x => do return Decimal.toSingle (← floatOf x))
    ints := (← (v.fieldD "int_val").elems.mapM Value.toInt)
    content := (← (v.fieldD "content").elems.mapM Value.toScalar) }

def attrListOf : Except Fault AttrList := do
  return {
    texts := (← (v.fieldD "s").elems.mapM bytesOf)
    ints := (← (v.fieldD "i").elems.mapM int64Of)
    floats := (← (v.fieldD "f").elems.mapM fun x => do return Decimal.toSingle (← floatOf x))
    flags := (v.fieldD "b").elems.map Value.isSet
    types := (← (v.fieldD "type").elems.mapM Value.toInt)
    shapes := (← (v.fieldD "shape").elems.mapM shapeOf) }

def attrOf : Except Fault Attr :=
  match v.fields with
  | (kind, x) :: _ =>
    match kind with
    | "i" => (int64Of x).map .int
    | "f" => (floatOf x).map fun f => .float (Decimal.toSingle f)
    | "b" => .ok (.flag x.isSet)
    | "s" => (bytesOf x).map .text
    | "sx" =>
      match x with
      | .text s => .ok (.text (bytesOfHex s.toList))
      | _ => .error .kind
    | "type" => x.toInt.map .type
    | "shape" => (shapeOf x).map .shape
    | "list" => (attrListOf x).map .list
    | "tensor" => (literalOf x).map .tensor
    | _ => .error .value
  | [] => .ok .unset

def attrsOf : Except Fault (Table Attr) := do
  let es ← v.fields.mapM fun (k, a) => do return (k, ← attrOf a)
  return Table.ofList es

def layerOf : Except Fault Layer := do
  return {
    name := textOf v "name"
    op := textOf v "op"
    inputs := textsOf (v.fieldD "input")
    attrs := (← attrsOf (v.fieldD "attr")) }

def networkOf : Except Fault Network := do
  return { layers := (← v.elems.mapM layerOf) }

def tensorOf : Except Fault Tensor := do
  let cells := match v.fieldD "data" with
    | .list vs => vs
    | x => [x]
  let elem := match v.fieldD "dtype" with
    | .text s => (Elem.ofName? s).getD .float64
    | _ => .int64
  let data ← cells.mapM fun x => do return Scalar.cast elem (← x.toScalar)
  let shape ← match v.field? "shape" with
    | some s => pure ((← s.toInts).map Int.toNat)
    | none => pure [cells.length]
  if h : data.length = volume shape then return ⟨elem, ⟨shape, data.toArray, h⟩⟩
  throw .value

def weightsOf : Except Fault Weights := do
  let es ← v.fields.mapM fun (layer, ws) => do
    let arrays ← ws.fields.mapM fun (k, a) => do
      match a with
      | .record _ => return (k, Value.array (← tensorOf a))
      | x => return (k, x)
    return (layer, Table.ofList arrays)
  return Table.ofList es

/-! ## Answers -/

def sizes (ds : List Int) : Value := Value.ints ds

def attrText (bs : List UInt8) : String × Value :=
  match Text.decodeUtf8 bs with
  | some s => ("s", .text s)
  | none => ("sx", .text (hex bs))

def attrList (l : AttrList) : Value :=
  let kinds : List (String × List Value) := [
    ("s", l.texts.map fun bs => (attrText bs).2),
    ("i", l.ints.map .int),
    ("f", l.floats.map fun x => .text (Decimal.floatText x)),
    ("b", l.flags.map .bool),
    ("type", l.types.map .int),
    ("shape", l.shapes.map sizes)]
  .record ((kinds.filter fun k => !k.2.isEmpty).map fun k => (k.1, .list k.2))

def attr : Attr → Value
  | .unset => .record []
  | .int n => .record [("i", .int n)]
  | .float x => .record [("f", .text (Decimal.floatText x))]
  | .flag b => .record [("b", .bool b)]
  | .text bs => .record [attrText bs]
  | .type n => .record [("type", .int n)]
  | .shape ds => .record [("shape", sizes ds)]
  | .list l => .record [("list", attrList l)]
  | .tensor _ => .record []

def attrs (t : Table Attr) : Value := .record (t.entries.map fun e => (e.1, attr e.2))

def layer (l : Layer) : Value :=
  .record [("name", .text l.name), ("op", .text l.op),
    ("input", .list (l.inputs.map .text)), ("attr", attrs l.attrs)]

def layers (ls : List Layer) : Value := .list (ls.map layer)

def weights (w : Weights) : Value :=
  .record (w.entries.map fun e => (e.1, .record e.2.entries))

def texts (ss : List String) : Value := .list (ss.map .text)

end NetBridge.Record
