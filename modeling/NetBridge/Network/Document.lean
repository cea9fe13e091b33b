import NetBridge.Network.Layer

/-!
# Networks as documents

A network as a JSON document and its attributes as lines of named fields. Whole numbers of 64 bits are
texts in JSON, bytes are written in base 64, and what has its default value is left out.
-/

namespace NetBridge.Document

def typeNames : List String :=
  ["DT_UNDEFINED", "DT_INT8", "DT_INT16", "DT_INT32", "DT_INT64", "DT_UINT8", "DT_UINT16",
   "DT_UINT32", "DT_UINT64", "DT_FLOAT16", "DT_FLOAT32", "DT_FLOAT64", "DT_COMPLEX64",
   "DT_COMPLEX128", "DT_BOOL", "DT_STRING"]

def typeName? (n : Int) : Option String := if n < 0 then none else typeNames[n.toNat]?

/-! ## JSON -/

def longInt (n : Int) : Value := .text (toString n)

def fraction (x : Float) : Value :=
  if x.isNaN then .text "NaN"
  else if x.isInf then .text (if x > 0 then "Infinity" else "-Infinity")
  else .float ((Decimal.readFloat? (Decimal.singleText x.toFloat32)).getD x)

def elementType (n : Int) : Value :=
  match typeName? n with
  | some s => .text s
  | none => .int n

def shape (dims : List Int) : Value :=
  let size (d : Int) : Value := .record (if d = 0 then [] else [("size", longInt d)])
  .record (if dims.isEmpty then [] else [("dim", .list (dims.map size))])

def attrList (l : AttrList) : Value :=
  let kinds : List (String × List Value) := [
    ("s", l.texts.map fun bs => .text (Text.base64 bs)),
    ("i", l.ints.map longInt),
    ("f", l.floats.map fraction),
    ("b", l.flags.map .bool),
    ("type", l.types.map elementType),
    ("shape", l.shapes.map shape)]
  .record ((kinds.filter fun k => !k.2.isEmpty).map fun k => (k.1, .list k.2))

def attr : Attr → Value
  | .unset | .tensor _ => .record []
  | .list l => .record [("list", attrList l)]
  | .text bs => .record [("s", .text (Text.base64 bs))]
  | .int n => .record [("i", longInt n)]
  | .float x => .record [("f", fraction x)]
  | .flag b => .record [("b", .bool b)]
  | .type n => .record [("type", elementType n)]
  | .shape ds => .record [("shape", shape ds)]

def layer (l : Layer) : Value :=
  .record (
    (if l.name.isEmpty then [] else [("name", .text l.name)]) ++
    (if l.op.isEmpty then [] else [("op", .text l.op)]) ++
    (if l.inputs.isEmpty then [] else [("input", .list (l.inputs.map .text))]) ++
    (if l.attrs.isEmpty then [] else [("attr", .record (l.attrs.entries.map fun e => (e.1, attr e.2)))]))

def network (n : Network) : Value :=
  .record (
    (if n.layers.isEmpty then [] else [("node", .list (n.layers.map layer))]) ++
    (if n.version = 0 then [] else [("version", .int n.version)]))

def json (n : Network) : String := Json.document Json.sorted (network n)

/-! ## Lines of fields -/

def fieldByte (b : UInt8) : String :=
  let n := b.toNat
  if n = 34 then "\\\"" else if n = 39 then "\\'" else if n = 92 then "\\\\"
  else if n = 10 then "\\n" else if n = 13 then "\\r" else if n = 9 then "\\t"
  else if 32 ≤ n && n < 127 then String.ofList [Char.ofNat n]
  else "\\" ++ String.ofList [Char.ofNat (48 + n / 64), Char.ofNat (48 + n / 8 % 8), Char.ofNat (48 + n % 8)]

def quotedField (bs : List UInt8) : String := "\"" ++ String.join (bs.map fieldByte) ++ "\""

def indented (s : String) : String :=
  String.join ((Text.lines s).dropLast.map fun l => "  " ++ l ++ "\n")

def listField (l : AttrList) : String :=
  let field (name : String) (s : String) : String := name ++ ": " ++ s ++ "\n"
  String.join (
    l.texts.map (fun bs => field "s" (quotedField bs)) ++
    l.ints.map (fun n => field "i" (toString n)) ++
    l.floats.map (fun x => field "f" (Decimal.singleText x.toFloat32)) ++
    l.flags.map (fun b => field "b" (if b then "true" else "false")) ++
    l.types.map (fun n => field "type" ((typeName? n).getD (toString n))) ++
    l.shapes.map (fun ds => "shape \x7b\n" ++ indented (shapeText ds) ++ "\x7d\n"))

def attrText (a : Attr) : Except Fault String :=
  match a with
  | .unset | .tensor _ => .ok "None"
  | .list l => .ok (listField l)
  | .text bs => do return (← Attr.decode bs).display
  | .int n => .ok (toString n)
  | .float x => .ok (Decimal.floatText x)
  | .flag b => .ok (boolText b)
  | .type n => .ok (toString n)
  | .shape ds => .ok (shapeText ds)

end NetBridge.Document
