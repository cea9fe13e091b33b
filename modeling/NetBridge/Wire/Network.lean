import NetBridge.Wire.TextForm

/-!
# Stored networks

What the messages of a stored network say. A file is read in binary form if it can be, and else in text
form; what the binary form gave before it turned out malformed stays.
-/

namespace NetBridge

namespace Wire

variable (fs : Fields)

def merged (name : String) : Fields :=
  (allOf fs name).flatMap fun
    | .message gs => gs
    | _ => []

def textOf (name : String) : String :=
  match lastOf fs name with
  | some (.text s) => s
  | _ => ""

def intOf (name : String) : Int :=
  match lastOf fs name with
  | some (.int n) => n
  | _ => 0

def intsOf (name : String) : List Int :=
  (allOf fs name).filterMap fun
    | .int n => some n
    | _ => none

def realsOf (name : String) : List Float :=
  (allOf fs name).filterMap fun
    | .real x => some x
    | _ => none

def messagesOf (name : String) : List Fields :=
  (allOf fs name).filterMap fun
    | .message gs => some gs
    | _ => none

def dimsOf : List Int := (messagesOf fs "dim").map fun d => intOf d "size"

def tensorOf : LiteralTensor where
  elem := intOf fs "dtype"
  dims := dimsOf (merged fs "tensor_shape")
  floats := realsOf fs "float_val"
  ints := intsOf fs "int_val"
  content := []

def attrListOf : AttrList where
  texts := (allOf fs "s").filterMap fun
    | .bytes bs => some bs
    | _ => none
  ints := intsOf fs "i"
  floats := realsOf fs "f"
  flags := (allOf fs "b").filterMap fun
    | .flag b => some b
    | _ => none
  types := intsOf fs "type"
  shapes := (messagesOf fs "shape").map dimsOf
  tensors := (messagesOf fs "tensor").map tensorOf

def attrOf : Attr :=
  match fs.getLast? with
  | none => .unset
  | some (name, c) =>
    let run := (fs.reverse.takeWhile fun f => f.1 == name).reverse
    match c with
    | .int n => if name = "type" then .type n else .int n
    | .real x => .float x
    | .flag b => .flag b
    | .bytes bs => .text bs
    | .text s => .text (Text.encodeUtf8 s)
    | .message _ =>
      let gs := merged run name
      if name = "list" then .list (attrListOf gs)
      else if name = "shape" then .shape (dimsOf gs)
      else .tensor (tensorOf gs)

def layerOf : Layer where
  name := textOf fs "name"
  op := textOf fs "op"
  inputs := (allOf fs "input").filterMap fun
    | .text s => some s
    | _ => none
  attrs := Table.ofList ((messagesOf fs "attr").map fun e => (textOf e "key", attrOf (merged e "value")))

def networkOf : Network where
  layers := (messagesOf fs "node").map layerOf
  version := intOf fs "version"

inductive Form where
  | binary
  | text
  deriving DecidableEq

def depth : Nat := 10

def load (file : List UInt8) : Except Fault (Form × Network) :=
  match decode depth .network file with
  | (fs, none) => .ok (.binary, networkOf fs)
  | (fs, some _) => do
    let text ← orFault { cause := .encoding } (Text.decodeUtf8 file)
    return (.text, networkOf (← parse depth .network fs text))

end Wire

/-! ## Storing networks

`load` reads the stored form back. Fields that are empty are not stored. -/

namespace Wire.Store

def varint (n : Nat) : List UInt8 :=
  if n < 0x80 then [n.toUInt8] else (n % 0x80 + 0x80).toUInt8 :: varint (n / 0x80)

def littleEndian : Nat → Nat → List UInt8
  | 0, _ => []
  | count + 1, n => (n % 256).toUInt8 :: littleEndian count (n / 256)

def whole (n : Int) : List UInt8 := varint (n % (Nat.pow 2 64 : Int)).toNat

def single (x : Float) : List UInt8 := littleEndian 4 x.toFloat32.toBits.toNat

def block (number : Nat) (bs : List UInt8) : List UInt8 :=
  varint (number * 8 + 2) ++ varint bs.length ++ bs

def text (number : Nat) (s : String) : List UInt8 :=
  if s.isEmpty then [] else block number (Text.encodeUtf8 s)

def number (number : Nat) (n : Int) : List UInt8 := varint (number * 8) ++ whole n

def row {α : Type} (number : Nat) (store : α → List UInt8) (xs : List α) : List UInt8 :=
  if xs.isEmpty then [] else block number (xs.flatMap store)

def each {α : Type} (number : Nat) (store : α → List UInt8) (xs : List α) : List UInt8 :=
  xs.flatMap fun x => block number (store x)

def nonzero (field : Nat) (n : Int) : List UInt8 := if n = 0 then [] else number field n

def shape (dims : List Int) : List UInt8 := each 2 (nonzero 1) dims

def flag (b : Bool) : List UInt8 := whole (if b then 1 else 0)

def tensor (t : LiteralTensor) : List UInt8 :=
  let ints := t.ints ++ t.content.filterMap fun
    | .int n => some n
    | .real _ => none
  let floats := t.floats ++ t.content.filterMap fun
    | .int _ => none
    | .real x => some x
  nonzero 1 t.elem ++ block 2 (shape t.dims) ++ row 5 whole ints ++ row 9 single floats

def attrList (l : AttrList) : List UInt8 :=
  each 2 id l.texts ++ row 3 whole l.ints ++ row 4 single l.floats ++ row 5 flag l.flags ++
    row 6 whole l.types ++ each 7 shape l.shapes ++ each 8 tensor l.tensors

def attr : Attr → List UInt8
  | .unset => []
  | .list l => block 1 (attrList l)
  | .text bs => block 2 bs
  | .int n => number 3 n
  | .float x => varint (4 * 8 + 5) ++ single x
  | .flag b => varint (5 * 8) ++ flag b
  | .type n => number 6 n
  | .shape dims => block 7 (shape dims)
  | .tensor t => block 8 (tensor t)

def layer (l : Layer) : List UInt8 :=
  text 1 l.name ++ text 2 l.op ++ each 3 Text.encodeUtf8 l.inputs ++
    each 4 (fun (k, a) => text 1 k ++ block 2 (attr a)) l.attrs.entries

def network (n : Network) : List UInt8 := each 1 layer n.layers ++ nonzero 2 n.version

end Wire.Store

end NetBridge
