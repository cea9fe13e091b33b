import NetBridge.Wire.Binary

/-!
# Zip archives

An archive ends with a record that says where the list of its members is; a member is stored behind a
head of its own. Only members that are stored as they are can be read.
-/

namespace NetBridge.Archive

open Wire (littleEndian)

def crcBit (c : UInt32) : UInt32 :=
  if c % 2 = 1 then (c >>> 1) ^^^ 0xEDB88320 else c >>> 1

def crcByte (c : UInt32) (b : UInt8) : UInt32 := (List.range 8).foldl (fun c _ => crcBit c) (c ^^^ b.toUInt32)

variable (bs : List UInt8)

def crc32 : UInt32 := bs.foldl crcByte 0xFFFFFFFF ^^^ 0xFFFFFFFF

def numberAt (place width : Nat) : Nat := littleEndian ((bs.drop place).take width)

def startsWith (bs start : List UInt8) : Bool := bs.take start.length == start

def memberMark : List UInt8 := [80, 75, 3, 4]

def entryMark : List UInt8 := [80, 75, 1, 2]

def endMark : List UInt8 := [80, 75, 5, 6]

def endPlace? : Option Nat :=
  ((List.range (bs.length - 21)).reverse.find? fun i => startsWith (bs.drop i) endMark)

structure Member where
  rawName : List UInt8
  method : Nat
  isUtf8 : Bool
  crc : Nat
  storedSize : Nat
  size : Nat
  place : Int

def Member.name (m : Member) : String :=
  let plain := String.ofList (m.rawName.map fun b => Char.ofNat b.toNat)
  if m.isUtf8 then (Text.decodeUtf8 m.rawName).getD plain else plain

def Member.isDirectory (m : Member) : Bool := m.rawName.getLast? = some 47

def entries (shift : Int) : Nat → List UInt8 → Option (List Member)
  | _, [] => some []
  | 0, _ => none
  | fuel + 1, bs =>
    if bs.length < 46 || !startsWith bs entryMark then none
    else do
      let nameLength := numberAt bs 28 2
      let more := numberAt bs 30 2 + numberAt bs 32 2
      let m : Member := {
        rawName := (bs.drop 46).take nameLength
        method := numberAt bs 10 2
        isUtf8 := numberAt bs 8 2 / 2048 % 2 = 1
        crc := numberAt bs 16 4
        storedSize := numberAt bs 20 4
        size := numberAt bs 24 4
        place := numberAt bs 42 4 + shift }
      return m :: (← entries shift fuel (bs.drop (46 + nameLength + more)))

def members : Option (List Member) := do
  let last ← endPlace? bs
  let record := bs.drop last
  let listSize := numberAt record 12 4
  let listPlace := numberAt record 16 4
  let shift : Int := last - listSize - listPlace
  let start := listPlace + shift
  if start < 0 then none
  else entries shift listSize ((bs.drop start.toNat).take listSize)

def Member.bytes (m : Member) (archive : List UInt8) : Option (List UInt8) :=
  let head := archive.drop m.place.toNat
  let nameLength := numberAt head 26 2
  let data := (head.drop (30 + nameLength + numberAt head 28 2)).take m.storedSize
  if m.place < 0 || head.length < 30 || !startsWith head memberMark ||
      (head.drop 30).take nameLength != m.rawName || m.method ≠ 0 ||
      data.length ≠ m.storedSize || (crc32 data).toNat ≠ m.crc then none
  else some data

def Member.target (m : Member) : String :=
  Text.join "/" ((Text.split '/' m.name).filter fun s => s ≠ "" && s ≠ "." && s ≠ "..")

end NetBridge.Archive
