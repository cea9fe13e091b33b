import NetBridge.Value.Basic

/-!
# The binary form of networks

A stored network is a tree of messages, sequences of fields. A field is stored as a tag, which holds
its number and how its content is stored, and the content. Unknown fields are passed over. When bytes
are malformed, the fields in front of them are still given.
-/

namespace NetBridge.Wire

inductive MessageType where
  | network
  | layer
  | attrEntry
  | attr
  | attrList
  | shape
  | size
  | tensor
  deriving DecidableEq, Repr

inductive FieldType where
  | int32
  | int64
  | single
  | double
  | flag
  | text
  | bytes
  | elementType
  | message (t : MessageType)
  deriving DecidableEq, Repr

structure FieldSpec where
  number : Nat
  name : String
  type : FieldType
  repeated : Bool := false
  exclusive : Bool := false
  deriving DecidableEq, Repr

def once (number : Nat) (name : String) (type : FieldType) : FieldSpec := { number, name, type }

def several (number : Nat) (name : String) (type : FieldType) : FieldSpec := { number, name, type, repeated := true }

def either (number : Nat) (name : String) (type : FieldType) : FieldSpec := { number, name, type, exclusive := true }

def MessageType.fields : MessageType → List FieldSpec
  | .network => [
    several 1 "node" (.message .layer),
    once 2 "version" .int32]
  | .layer => [
    once 1 "name" .text,
    once 2 "op" .text,
    several 3 "input" .text,
    several 4 "attr" (.message .attrEntry)]
  | .attrEntry => [
    once 1 "key" .text,
    once 2 "value" (.message .attr)]
  | .attr => [
    either 1 "list" (.message .attrList),
    either 2 "s" .bytes,
    either 3 "i" .int64,
    either 4 "f" .single,
    either 5 "b" .flag,
    either 6 "type" .elementType,
    either 7 "shape" (.message .shape),
    either 8 "tensor" (.message .tensor)]
  | .attrList => [
    several 2 "s" .bytes,
    several 3 "i" .int64,
    several 4 "f" .single,
    several 5 "b" .flag,
    several 6 "type" .elementType,
    several 7 "shape" (.message .shape),
    several 8 "tensor" (.message .tensor)]
  | .shape => [
    several 2 "dim" (.message .size),
    once 3 "unknown_rank" .flag]
  | .size => [
    once 1 "size" .int64,
    once 2 "name" .text]
  | .tensor => [
    once 1 "dtype" .elementType,
    once 2 "tensor_shape" (.message .shape),
    once 3 "version_number" .int32,
    once 4 "tensor_content" .bytes,
    several 5 "int_val" .int32,
    several 6 "uint_val" .int32,
    several 7 "int64_val" .int64,
    several 8 "uint64_val" .int64,
    several 9 "float_val" .single,
    several 10 "double_val" .double,
    several 11 "bool_val" .flag,
    several 12 "string_val" .bytes]

def elementTypes : List String :=
  ["DT_UNDEFINED", "DT_INT8", "DT_INT16", "DT_INT32", "DT_INT64", "DT_UINT8", "DT_UINT16", "DT_UINT32",
   "DT_UINT64", "DT_FLOAT16", "DT_FLOAT32", "DT_FLOAT64", "DT_COMPLEX64", "DT_COMPLEX128", "DT_BOOL",
   "DT_STRING"]

inductive Content where
  | int (n : Int)
  | real (x : Float)
  | flag (b : Bool)
  | text (s : String)
  | bytes (bs : List UInt8)
  | message (fields : List (String × Content))
  deriving Inhabited

abbrev Fields := List (String × Content)

def Content.isSet : Content → Bool
  | .int n => n != 0
  | .real x => x != 0
  | .flag b => b
  | .text s => !s.isEmpty
  | .bytes bs => !bs.isEmpty
  | .message _ => true

def lastOf (fs : Fields) (name : String) : Option Content := (fs.reverse.find? fun f => f.1 == name).map (·.2)

def allOf (fs : Fields) (name : String) : List Content := (fs.filter fun f => f.1 == name).map (·.2)

/-! ## Bytes -/

def malformed : Fault := .value

def groups : Nat → List UInt8 → Option (Nat × List UInt8)
  | 0, _ => none
  | _ + 1, [] => none
  | fuel + 1, b :: r =>
    if b.toNat < 0x80 then some (b.toNat, r)
    else do
      let (n, r) ← groups fuel r
      return (b.toNat - 0x80 + 0x80 * n, r)

variable (bs : List UInt8)

def varint : Option (Nat × List UInt8) := do
  let (n, r) ← groups 10 bs
  return (n % Nat.pow 2 64, r)

def littleEndian : Nat := bs.foldr (fun b n => b.toNat + 256 * n) 0

def takeBytes (n : Nat) (bs : List UInt8) : Option (List UInt8 × List UInt8) :=
  if n ≤ bs.length then some (bs.take n, bs.drop n) else none

def signed (bits n : Nat) : Int := Int.bmod (n : Int) (Nat.pow 2 bits)

def singleOfBits (n : Nat) : Float := (Float32.ofBits n.toUInt32).toFloat

def doubleOfBits (n : Nat) : Float := Float.ofBits n.toUInt64

inductive Stored where
  | varint (n : Nat)
  | fixed64 (n : Nat)
  | block (bs : List UInt8)
  | fixed32 (n : Nat)
  | group

def skipGroup : Nat → List UInt8 → Option (List UInt8)
  | 0, _ => none
  | fuel + 1, bs => do
    let (tag, r) ← groups 10 bs
    match tag % 8 with
    | 0 => skipGroup fuel (← varint r).2
    | 1 => skipGroup fuel (← takeBytes 8 r).2
    | 2 =>
      let (n, r) ← varint r
      skipGroup fuel (← takeBytes n r).2
    | 3 => skipGroup fuel (← skipGroup fuel r)
    | 4 => some r
    | 5 => skipGroup fuel (← takeBytes 4 r).2
    | _ => none

/-- The next field: its number, how it is stored, and the bytes behind it. The number of a field whose
tag takes more than one byte is not known to any message. -/
def nextField : Option (Nat × Stored × List UInt8) := do
  let (tag, r) ← groups 10 bs
  let number := tag / 8
  if number = 0 then none
  let known := if bs.length = r.length + 1 then number else 0
  match tag % 8 with
  | 0 =>
    let (n, r) ← varint r
    return (known, .varint n, r)
  | 1 =>
    let (b, r) ← takeBytes 8 r
    return (known, .fixed64 (littleEndian b), r)
  | 2 =>
    let (n, r) ← varint r
    let (b, r) ← takeBytes n r
    return (known, .block b, r)
  | 3 => return (0, .group, ← skipGroup (r.length + 1) r)
  | 5 =>
    let (b, r) ← takeBytes 4 r
    return (known, .fixed32 (littleEndian b), r)
  | _ => none

def storedFields : Nat → List UInt8 → List (Nat × Stored) × Bool
  | _, [] => ([], true)
  | 0, _ => ([], false)
  | fuel + 1, bs =>
    match nextField bs with
    | some (number, s, r) =>
      let (fs, ok) := storedFields fuel r
      ((number, s) :: fs, ok)
    | none => ([], false)

def textContent : Except Fault Content :=
  match Text.decodeUtf8 bs with
  | some s => .ok (.text s)
  | none => .error { cause := .encoding }

def numberContent? : FieldType → Stored → Option Content
  | .int32, .varint n | .elementType, .varint n => some (.int (signed 32 n))
  | .int64, .varint n => some (.int (signed 64 n))
  | .flag, .varint n => some (.flag (n != 0))
  | .single, .fixed32 n => some (.real (singleOfBits n))
  | .double, .fixed64 n => some (.real (doubleOfBits n))
  | _, _ => none

def packed (t : FieldType) : Nat → List UInt8 → Except Fault (List Content)
  | _, [] => .ok []
  | 0, _ => .error malformed
  | fuel + 1, bs => do
    let next : Option (Stored × List UInt8) := match t with
      | .single => (takeBytes 4 bs).map fun p => (.fixed32 (littleEndian p.1), p.2)
      | .double => (takeBytes 8 bs).map fun p => (.fixed64 (littleEndian p.1), p.2)
      | _ => (varint bs).map fun p => (.varint p.1, p.2)
    let (s, r) ← orFault malformed next
    let c ← orFault malformed (numberContent? t s)
    return c :: (← packed t fuel r)

def contents (inner : MessageType → List UInt8 → Fields × Option Fault) (t : MessageType) :
    List (Nat × Stored) → Fields × Option Fault
  | [] => ([], none)
  | (number, s) :: rest =>
    let (now, fault) : Fields × Option Fault :=
      match t.fields.find? (·.number == number) with
      | none => ([], none)
      | some f =>
        match f.type, s with
        | .text, .block bs =>
          match textContent bs with
          | .ok c => ([(f.name, c)], none)
          | .error e => ([], some e)
        | .bytes, .block bs => ([(f.name, .bytes bs)], none)
        | .message m, .block bs =>
          match inner m bs with
          | (fs, none) => ([(f.name, .message fs)], none)
          | (fs, some e) => (if m = .attrEntry then [] else [(f.name, .message fs)], some e)
        | .message _, _ | .text, _ | .bytes, _ => ([], none)
        | type, .block bs =>
          if f.repeated then
            match packed type bs.length bs with
            | .ok cs => (cs.map fun c => (f.name, c), none)
            | .error e => ([], some e)
          else ([], none)
        | type, s =>
          match numberContent? type s with
          | some c => ([(f.name, c)], none)
          | none => ([], none)
    match fault with
    | some e => (now, some e)
    | none =>
      let (later, fault) := contents inner t rest
      (now ++ later, fault)

def decode : Nat → MessageType → List UInt8 → Fields × Option Fault
  | 0, _, _ => ([], some malformed)
  | depth + 1, t, bs =>
    let (stored, ok) := storedFields bs.length bs
    match contents (decode depth) t stored with
    | (fs, some e) => (fs, some e)
    | (fs, none) => (fs, if ok then none else some malformed)

end NetBridge.Wire
