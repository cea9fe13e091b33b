import NetBridge.Tensor.Basic
import NetBridge.Text.Quoted

/-!
# Values

`Value` is the one type for values whose kind is known only when they are read. Reading a value as
something it is not is a fault of kind.
-/

namespace NetBridge

inductive Value where
  | none
  | bool (b : Bool)
  | int (n : Int)
  | float (x : Float)
  | text (s : String)
  | bytes (bs : List UInt8)
  | shape (dims : List Int)
  | list (vs : List Value)
  | tuple (vs : List Value)
  | record (fields : List (String × Value))
  | array (t : Tensor)
  | message (fields : List (String × Value))
  | handle (name : String)
  deriving Inhabited

namespace Value

/-- Does the value count as set: not missing, not zero, not empty? -/
def isSet : Value → Bool
  | .none => false
  | .bool b => b
  | .int n => n != 0
  | .float x => x != 0
  | .text s => !s.isEmpty
  | .bytes bs => !bs.isEmpty
  | .list vs | .tuple vs => !vs.isEmpty
  | .record fs => !fs.isEmpty
  | .array _ | .shape _ | .message _ | .handle _ => true

def isNone : Value → Bool
  | .none => true
  | _ => false

def place (length : Nat) (i : Int) : Option Nat :=
  let j := if i < 0 then i + length else i
  if 0 ≤ j && j < length then some j.toNat else Option.none

def nth {α : Type} (xs : List α) (i : Int) : Except Fault α :=
  match (place xs.length i).bind fun k => xs[k]? with
  | some a => .ok a
  | Option.none => .error .position

def bound (length : Nat) (i : Int) : Nat :=
  let j := if i < 0 then max 0 (i + length) else i
  min j.toNat length

/-- The part of a list from one index up to another; bounds may be left out and may count from the
end. -/
def slice {α : Type} (xs : List α) (start stop : Option Int) : List α :=
  let a := (start.map (bound xs.length)).getD 0
  let b := (stop.map (bound xs.length)).getD xs.length
  (xs.take b).drop a

def sliceFrom {α : Type} (xs : List α) (start : Int) : List α := slice xs (some start) Option.none

def inner {α : Type} (xs : List α) : List α := slice xs (some 1) (some (-1))

def elements : Value → Except Fault (List Value)
  | .list vs | .tuple vs => .ok vs
  | .text s => .ok (s.toList.map fun c => .text (String.ofList [c]))
  | .bytes bs => .ok (bs.map fun b => .int b.toNat)
  | .record fs => .ok (fs.map fun f => .text f.1)
  | _ => .error .kind

variable (v : Value)

def length : Except Fault Nat := v.elements.map List.length

def index (i : Int) : Except Fault Value :=
  match v with
  | .record _ => .error .key
  | _ => do nth (← v.elements) i

def toInt : Value → Except Fault Int
  | .int n => .ok n
  | .bool b => .ok (if b then 1 else 0)
  | _ => .error .kind

def toInts : Except Fault (List Int) := do (← v.elements).mapM toInt

def toText : Value → Except Fault String
  | .text s => .ok s
  | _ => .error .kind

def toScalar : Value → Except Fault Scalar
  | .int n => .ok (.int n)
  | .bool b => .ok (.int (if b then 1 else 0))
  | .float x => .ok (.real x)
  | _ => .error .kind

def toFloat : Except Fault Float := v.toScalar.map Scalar.toFloat

def ints (ns : List Int) : Value := .list (ns.map .int)

def ofScalar : Scalar → Value
  | .int n => .int n
  | .real x => .float x

def nest : List Nat → List Value → Value
  | [], vs => vs.headD .none
  | n :: dims, vs =>
    let width := volume dims
    .list ((List.range n).map fun i => nest dims ((vs.drop (i * width)).take width))

/-- An array as lists inside lists; an array without axes is a single number. -/
def ofTensor (t : Tensor) : Value :=
  nest t.shape (t.toList.map fun s =>
    match t.elem, s with
    | .bool, .int n => .bool (n != 0)
    | _, s => ofScalar s)

def field? (name : String) : Option Value :=
  match v with
  | .record fs | .message fs => (fs.find? fun f => f.1 == name).map (·.2)
  | _ => Option.none

def fieldD (name : String) : Value := (v.field? name).getD .none

def fields : Value → List (String × Value)
  | .record fs | .message fs => fs
  | _ => []

def elems : Value → List Value
  | .list vs | .tuple vs => vs
  | _ => []

mutual

def same (a b : Value) : Bool :=
  match a, b with
  | .none, .none => true
  | .text s, .text t => s == t
  | .bytes s, .bytes t => s == t
  | .shape s, .shape t => s == t
  | .list vs, .list ws => sameAll vs ws
  | .tuple vs, .tuple ws => sameAll vs ws
  | a, b =>
    match a.toScalar, b.toScalar with
    | .ok x, .ok y => x.same y
    | _, _ => false

def sameAll (vs ws : List Value) : Bool :=
  match vs, ws with
  | [], [] => true
  | v :: vs, w :: ws => same v w && sameAll vs ws
  | _, _ => false

end

end Value

/-! ## The text of values

`Value.display` is how a value is written into generated code and reports: text as it is, a missing
value as `None`, lists in square and tuples in round brackets with quoted text inside. -/

def tupleText : List String → String
  | [s] => "(" ++ s ++ ",)"
  | ss => "(" ++ Text.join ", " ss ++ ")"

def listText (ss : List String) : String := "[" ++ Text.join ", " ss ++ "]"

def boolText (b : Bool) : String := if b then "True" else "False"

def shapeText (dims : List Int) : String :=
  String.join (dims.map fun d =>
    "dim \x7b\n" ++ (if d = 0 then "" else "  size: " ++ toString d ++ "\n") ++ "\x7d\n")

namespace Value

mutual
def quoted : Value → String
  | .none => "None"
  | .bool b => boolText b
  | .int n => toString n
  | .float x => Decimal.floatText x
  | .text s => Text.quoted s
  | .bytes bs => Text.quotedBytes bs
  | .shape ds => shapeText ds
  | .list vs => listText (quotedAll vs)
  | .tuple vs => tupleText (quotedAll vs)
  | .record fs => "\x7b" ++ Text.join ", " (quotedFields fs) ++ "\x7d"
  | .array t => listText (t.toList.map Scalar.text)
  | .message fs => "\x7b" ++ Text.join ", " (quotedFields fs) ++ "\x7d"
  | .handle n => n

def quotedAll : List Value → List String
  | [] => []
  | v :: vs => quoted v :: quotedAll vs

def quotedFields : List (String × Value) → List String
  | [] => []
  | (k, v) :: fs => (Text.quoted k ++ ": " ++ quoted v) :: quotedFields fs
end

def display : Value → String
  | .text s => s
  | v => v.quoted

end Value

def intTuple (ns : List Int) : String := tupleText (ns.map toString)

def intList (ns : List Int) : String := listText (ns.map toString)

/-! ## Numbers from values

A number may be given as such or as text. -/

namespace Value

def readWhole : Value → Except Fault Int
  | .text s => orFault .value (Decimal.readInt? s)
  | .int n => .ok n
  | .bool b => .ok (if b then 1 else 0)
  | .float x => .ok (Scalar.truncate x)
  | _ => .error .kind

def readFraction : Value → Except Fault Value
  | .text s => (orFault .value (Decimal.readFloat? s)).map .float
  | v => v.toFloat.map .float

/-! ## Nested lists as arrays

Numbers are brought to one kind: as soon as one of them is a fraction all are, and flags among numbers
count as numbers. -/

mutual

def unnest (v : Value) : Except Fault (List Nat × List Value) :=
  match v with
  | .list vs | .tuple vs => do
    let parts ← unnestAll vs
    match parts with
    | [] => return ([0], [])
    | p :: _ =>
      require (parts.all fun q => q.1 == p.1) .value
      return (parts.length :: p.1, parts.flatMap (·.2))
  | v => .ok ([], [v])

def unnestAll (vs : List Value) : Except Fault (List (List Nat × List Value)) :=
  match vs with
  | [] => .ok []
  | v :: vs => do return (← unnest v) :: (← unnestAll vs)

end

def unify (vs : List Value) : List Value :=
  if vs.any (fun v => match v with | .float _ => true | _ => false) then
    vs.map fun v => match v.toFloat with | .ok x => .float x | .error _ => v
  else if vs.any (fun v => match v with | .int _ => true | _ => false) then
    vs.map fun v => match v.toInt with | .ok n => .int n | .error _ => v
  else vs

def flatten (v : Value) : Except Fault (List Value) := do return unify (← unnest v).2

end Value

/-! ## Calls and signatures -/

structure Call where
  name : String
  args : List Value := []
  named : List (String × Value) := []
  deriving Inhabited

def Call.value (c : Call) : Value := .list [.text c.name, .list c.args, .record c.named]

structure Signature where
  params : List String
  required : Nat

namespace Signature

def fits (s : Signature) (count : Nat) (names : List String) : Bool :=
  let free := s.params.drop count
  count ≤ s.params.length && names.all free.contains &&
    ((s.params.take s.required).drop count).all names.contains

def bind (s : Signature) (args : List Value) (named : List (String × Value)) : Except Fault Value := do
  require (s.fits args.length (named.map (·.1))) .kind
  return .record (s.params.zip args ++ named)

end Signature

/-! ## JSON documents

A line for every entry, blanks for every level, and only ASCII characters. The fields of a record keep
their order or come in the order of their names. -/

namespace Json

structure Style where
  blanks : Nat
  sorted : Bool
  deriving DecidableEq, Repr

def sorted : Style := ⟨4, true⟩

def inOrder : Style := ⟨2, false⟩

def unit16 (n : Nat) : String := "\\u" ++ Text.hexPadded 4 n

def escapedChar (c : Char) : String :=
  let n := c.toNat
  if c = '"' then "\\\""
  else if c = '\\' then "\\\\"
  else if c = '\n' then "\\n"
  else if c = '\r' then "\\r"
  else if c = '\t' then "\\t"
  else if n = 8 then "\\b"
  else if n = 12 then "\\f"
  else if 32 ≤ n && n < 127 then String.ofList [c]
  else if n < 65536 then unit16 n
  else unit16 (55296 + (n - 65536) / 1024) ++ unit16 (56320 + (n - 65536) % 1024)

def quoted (s : String) : String := "\"" ++ String.join (s.toList.map escapedChar) ++ "\""

def number (x : Float) : String :=
  if x.isNaN then "NaN" else if x.isInf then (if x > 0 then "Infinity" else "-Infinity")
  else Decimal.floatText x

def insertField (f : String × String) : List (String × String) → List (String × String)
  | [] => [f]
  | g :: r => if f.1 < g.1 then f :: g :: r else g :: insertField f r

def sortFields (fs : List (String × String)) : List (String × String) :=
  fs.foldl (fun acc f => insertField f acc) []

def enclosed (style : Style) (start stop : String) (depth : Nat) (entries : List String) : String :=
  if entries.isEmpty then start ++ stop
  else
    let indent (k : Nat) : String := "\n" ++ Text.blanks (style.blanks * k)
    start ++ indent (depth + 1) ++ Text.join ("," ++ indent (depth + 1)) entries ++ indent depth ++ stop

mutual
def write (style : Style) (depth : Nat) : Value → String
  | .none => "null"
  | .bool b => if b then "true" else "false"
  | .int n => toString n
  | .float x => number x
  | .text s => quoted s
  | .list vs | .tuple vs => enclosed style "[" "]" depth (writeAll style (depth + 1) vs)
  | .record fs | .message fs =>
    let fields := writeFields style (depth + 1) fs
    enclosed style "\x7b" "\x7d" depth
      ((if style.sorted then sortFields fields else fields).map fun f => quoted f.1 ++ ": " ++ f.2)
  | .bytes _ | .shape _ | .array _ | .handle _ => "null"

def writeAll (style : Style) (depth : Nat) : List Value → List String
  | [] => []
  | v :: vs => write style depth v :: writeAll style depth vs

def writeFields (style : Style) (depth : Nat) : List (String × Value) → List (String × String)
  | [] => []
  | (k, v) :: fs => (k, write style depth v) :: writeFields style depth fs
end

def document (style : Style) (v : Value) : String := write style 0 v

end Json

end NetBridge
