import NetBridge.Table
import NetBridge.Value.Basic

/-!
# Layers and networks

The interchange form of a network: layers with a name, an operator, the names of the layers they
read, and named attributes. An attribute holds one value of a fixed set of kinds, or none although it
is there.
-/

namespace NetBridge

structure LiteralTensor where
  elem : Int
  dims : List Int
  floats : List Float
  ints : List Int
  content : List Scalar
  deriving Inhabited

structure AttrList where
  texts : List (List UInt8) := []
  ints : List Int := []
  floats : List Float := []
  flags : List Bool := []
  types : List Int := []
  shapes : List (List Int) := []
  tensors : List LiteralTensor := []
  deriving Inhabited

inductive Attr where
  | unset
  | list (l : AttrList)
  | text (bs : List UInt8)
  | int (n : Int)
  | float (x : Float)
  | flag (b : Bool)
  | type (n : Int)
  | shape (dims : List Int)
  | tensor (t : LiteralTensor)
  deriving Inhabited

def fitsInt64 (n : Int) : Bool := -(Nat.pow 2 63 : Int) ≤ n && n < Nat.pow 2 63

def int64 (n : Int) : Except Fault Int := if fitsInt64 n then .ok n else .error .value

def int64Of : Value → Except Fault Int
  | .int n => int64 n
  | .bool b => .ok (if b then 1 else 0)
  | _ => .error .kind

namespace AttrList

def values (l : AttrList) : Option (List Value) :=
  if !l.texts.isEmpty then some (l.texts.map .bytes)
  else if !l.ints.isEmpty then some (l.ints.map .int)
  else if !l.floats.isEmpty then some (l.floats.map .float)
  else if !l.flags.isEmpty then some (l.flags.map .bool)
  else if !l.types.isEmpty then some (l.types.map .int)
  else if !l.shapes.isEmpty then some (l.shapes.map .shape)
  else if !l.tensors.isEmpty then some (l.tensors.map fun _ => .none)
  else none

end AttrList

namespace Attr

def items : Attr → AttrList
  | .list l => l
  | _ => {}

def dims : Attr → List Int
  | .shape ds => ds
  | _ => []

def intValue : Attr → Int
  | .int n => n
  | _ => 0

def floatValue : Attr → Float
  | .float x => x
  | _ => 0.0

def flagValue : Attr → Bool
  | .flag b => b
  | _ => false

def textValue : Attr → List UInt8
  | .text bs => bs
  | _ => []

def typeValue : Attr → Int
  | .type n => n
  | _ => 0

def decode (bs : List UInt8) : Except Fault Value :=
  match Text.decodeUtf8 bs with
  | some s => .ok (.text s)
  | none => .error { cause := .encoding }

def read (a : Attr) (default : Value) : Except Fault Value :=
  match a with
  | .unset =>
    match default with
    | .bytes bs => decode bs
    | v => .ok v
  | .list l =>
    match l.values with
    | some vs => .ok (.list vs)
    | none => .error .position
  | .text bs => decode bs
  | .int n => .ok (.int n)
  | .float x => .ok (.float x)
  | .flag b => .ok (.bool b)
  | .type n => .ok (.int n)
  | .shape ds => .ok (.shape ds)
  | .tensor _ => .ok .none

end Attr

def Value.kindName : Value → String
  | .none => "<class 'NoneType'>"
  | .bool _ => "<class 'bool'>"
  | .int _ => "<class 'int'>"
  | .float _ => "<class 'float'>"
  | .text _ => "<class 'str'>"
  | .bytes _ => "<class 'bytes'>"
  | .list _ => "<class 'list'>"
  | .tuple _ => "<class 'tuple'>"
  | .record _ => "<class 'dict'>"
  | .array _ => "<class 'numpy.ndarray'>"
  | .shape _ => "<class 'graph_pb2.TensorShape'>"
  | .message _ | .handle _ => "<class 'object'>"

structure AttrRules where
  takesBytes : Bool
  refusedList : List Value → Value → String

namespace AttrRules

def general : AttrRules :=
  { takesBytes := true
    refusedList := fun _ v => "AttrValue cannot be of list[" ++ v.display ++ "]." }

def prototxt : AttrRules :=
  { takesBytes := false
    refusedList := fun vs v =>
      "AttrValue cannot be of " ++ (Value.list vs).kindName ++ " " ++ v.kindName }

end AttrRules

namespace Attr

def extendInts (old : Attr) (ns : List Int) : Attr :=
  let l := old.items
  .list { l with ints := l.ints ++ ns }

def extendShapes (old : Attr) (ss : List (List Int)) : Attr :=
  let l := old.items
  .list { l with shapes := l.shapes ++ ss }

/-- An attribute with the content of another added: lists and shapes grow, other values are replaced,
and an attribute that holds nothing adds nothing. -/
def merge (old new : Attr) : Attr :=
  match old, new with
  | _, .unset => old
  | .list a, .list b =>
    .list { texts := a.texts ++ b.texts, ints := a.ints ++ b.ints, floats := a.floats ++ b.floats
            flags := a.flags ++ b.flags, types := a.types ++ b.types
            shapes := a.shapes ++ b.shapes, tensors := a.tensors ++ b.tensors }
  | .shape a, .shape b => .shape (a ++ b)
  | _, _ => new

def shapeOf : Value → Except Fault (List Int)
  | .shape ds => .ok ds
  | _ => .error .kind

/-- Stores a value in an attribute that holds `old`. Lists and shapes add to what is there, other
values replace it, and an empty list changes nothing. -/
def assign (rules : AttrRules) (old : Attr) (v : Value) : Except Fault Attr :=
  match v with
  | .bool b => .ok (.flag b)
  | .int n => (int64 n).map .int
  | .float x => .ok (.float (Decimal.toSingle x))
  | .text s => .ok (.text (Text.encodeUtf8 s))
  | .bytes bs =>
    if rules.takesBytes then .ok (.text bs)
    else .error (.report .unsupported ("AttrValue cannot be of " ++ v.kindName))
  | .shape ds => .ok (.shape (old.dims ++ ds))
  | .list vs =>
    match vs with
    | [] => .ok old
    | .int _ :: _ | .bool _ :: _ => (vs.mapM int64Of).map old.extendInts
    | .shape _ :: _ => (vs.mapM shapeOf).map old.extendShapes
    | w :: _ => .error (.report .unsupported (rules.refusedList vs w))
  | _ => .error (.report .unsupported ("AttrValue cannot be of " ++ v.kindName))

end Attr

/-! ## Layers -/

structure Layer where
  name : String := ""
  op : String := ""
  inputs : List String := []
  attrs : Table Attr := ∅
  deriving Inhabited

structure Network where
  layers : List Layer := []
  version : Int := 0
  deriving Inhabited

abbrev Weights := Table (Table Value)

namespace Layer

variable (l : Layer)

def attr (name : String) : Attr := l.attrs.findD name .unset

def hasAttr (name : String) : Bool := l.attrs.contains name

/-- The value of an attribute, or the default if it is not there or holds nothing. -/
def get (name : String) (default : Value := .none) : Except Fault Value :=
  match l.attrs.find? name with
  | some a => a.read default
  | none => .ok default

/-- The whole numbers of a list attribute; none if it is something else. -/
def ints (name : String) : List Int := (l.attr name).items.ints

/-- The sizes of a shape attribute; none if it is something else. -/
def dims (name : String) : List Int := (l.attr name).dims

def shapes (name : String) : List (List Int) := (l.attr name).items.shapes

def assign (rules : AttrRules) (l : Layer) (name : String) (v : Value) : Except Fault Unit × Layer :=
  let old := l.attr name
  match old.assign rules v with
  | .ok a => (.ok (), { l with attrs := l.attrs.insert name a })
  | .error f => (.error f, { l with attrs := l.attrs.insert name old })

def assignAll (rules : AttrRules) (l : Layer) : List (String × Value) → Except Fault Unit × Layer
  | [] => (.ok (), l)
  | (name, v) :: rest =>
    match l.assign rules name v with
    | (.ok _, l') => assignAll rules l' rest
    | (.error f, l') => (.error f, l')

def touch (name : String) : Layer :=
  { l with attrs := l.attrs.insert name (l.attr name) }

end Layer

end NetBridge
