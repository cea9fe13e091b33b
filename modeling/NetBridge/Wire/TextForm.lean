import NetBridge.Network.Layer
import NetBridge.Wire.Binary

/-!
# The text form of messages

A field of the text form is its name, a colon and its content; an inner message stands between braces
or angle brackets and needs no colon. A field that comes only once must not come again, and of fields
that exclude each other only one may come.
-/

namespace NetBridge.Wire

variable (c : Char) (cs : List Char)

def isLetter : Bool := ('a' ≤ c && c ≤ 'z') || ('A' ≤ c && c ≤ 'Z')

def isDigit : Bool := '0' ≤ c && c ≤ '9'

def inName : Bool := isLetter c || isDigit c || c == '_' || c == '+' || c == '-'

def inNumber : Bool := inName c || c == '.'

def quotedPart (quote : Char) : List Char → List Char
  | [] => []
  | '\\' :: c :: r => '\\' :: c :: quotedPart quote r
  | c :: r => if c = quote then [c] else c :: quotedPart quote r

def tokenAt (r : List Char) : List Char :=
  if isLetter c || c == '_' then c :: r.takeWhile inName
  else if isDigit c || c == '+' || c == '-' then c :: r.takeWhile inNumber
  else if c == '.' && (r.head?.map isDigit).getD false then c :: r.takeWhile inNumber
  else if c == '"' || c == '\'' then c :: quotedPart c r
  else [c]

def lineTokens : Nat → List Char → List (List Char)
  | 0, _ => []
  | _ + 1, [] => []
  | fuel + 1, c :: r =>
    if Text.isBlank c then lineTokens fuel r
    else if c = '#' then []
    else
      let t := tokenAt c r
      t :: lineTokens fuel ((c :: r).drop t.length)

def tokens (s : String) : List (List Char) :=
  (Text.splitChars '\n' s.toList).flatMap fun l => lineTokens l.length l

/-! ## Escapes

A letter for a control character, up to three octal digits, or `x` with one or two hexadecimal digits,
`u` with four, `U` with eight. A backslash in front of any other character stands for itself. -/

def digitIn? (base : Nat) (c : Char) : Option Nat :=
  let n :=
    if '0' ≤ c && c ≤ '9' then some (c.toNat - 48)
    else if 'a' ≤ c && c ≤ 'f' then some (c.toNat - 87)
    else if 'A' ≤ c && c ≤ 'F' then some (c.toNat - 55)
    else none
  n.filter (· < base)

def digitsIn (base : Nat) : Nat → List Char → List Nat
  | 0, _ => []
  | _ + 1, [] => []
  | n + 1, c :: r =>
    match digitIn? base c with
    | some d => d :: digitsIn base n r
    | none => []

def numberIn (base : Nat) (ds : List Nat) : Nat := ds.foldl (fun n d => n * base + d) 0

def control? : Char → Option Nat
  | 'a' => some 7
  | 'b' => some 8
  | 't' => some 9
  | 'n' => some 10
  | 'v' => some 11
  | 'f' => some 12
  | 'r' => some 13
  | '\\' => some 92
  | '\'' => some 39
  | '"' => some 34
  | _ => none

def codeBytes (n : Nat) : List UInt8 :=
  let digits (width : Nat) : List UInt8 := (Text.hexPadded width n).toList.map fun c => c.toNat.toUInt8
  if n < 0x100 then [n.toUInt8]
  else if n < 0x10000 then [92, 117] ++ digits 4
  else [92, 85] ++ digits 8

/-- The bytes that text between quotes stands for, given byte by byte; nothing if an escape is cut
short. -/
def unescape : Nat → List Char → Option (List UInt8)
  | 0, _ => some []
  | _ + 1, [] => some []
  | fuel + 1, c :: r =>
    let exactly (width : Nat) (r : List Char) : Option (List UInt8) := do
      let ds := digitsIn 16 width r
      let n := numberIn 16 ds
      if ds.length = width && n < 0x110000 then
        return codeBytes n ++ (← unescape fuel (r.drop width))
      else none
    if c != '\\' then do return c.toNat.toUInt8 :: (← unescape fuel r)
    else
      match r with
      | [] => none
      | 'x' :: r =>
        match digitsIn 16 2 r with
        | [] => none
        | ds => do return (numberIn 16 ds).toUInt8 :: (← unescape fuel (r.drop ds.length))
      | 'u' :: r => exactly 4 r
      | 'U' :: r => exactly 8 r
      | d :: r =>
        match digitsIn 8 3 (d :: r) with
        | [] =>
          match control? d with
          | some n => do return n.toUInt8 :: (← unescape fuel r)
          | none => do return 92 :: d.toNat.toUInt8 :: (← unescape fuel r)
        | ds => do return codeBytes (numberIn 8 ds) ++ (← unescape fuel ((d :: r).drop ds.length))

def quotedBytes? : Option (List UInt8) :=
  let bytes := Text.encodeUtf8 (String.ofList cs)
  unescape bytes.length (bytes.map fun b => Char.ofNat b.toNat)

/-! ## Fields -/

abbrev Tokens := List (List Char)

abbrev TextReader := StateT Tokens (Except Fault)

def malformedText : Fault := { cause := .resource }

def peek : TextReader (List Char) := do return (← get).headD []

def advance : TextReader Unit := modify List.tail

def accept : TextReader Bool := do
  if (← peek) = [c] then
    advance
    return true
  else return false

def expect : TextReader Unit := do
  unless ← accept c do throw malformedText

def basedDigits : List Char → Nat × List Char
  | '0' :: 'x' :: r | '0' :: 'X' :: r => (16, r)
  | '0' :: 'o' :: r | '0' :: 'O' :: r => (8, r)
  | '0' :: 'b' :: r | '0' :: 'B' :: r => (2, r)
  | '0' :: d :: r => if (d :: r).all isDigit then (8, d :: r) else (10, '0' :: d :: r)
  | r => (10, r)

def groupedDigits (base : Nat) : Bool → List Char → Option (List Nat)
  | ready, [] => if ready then some [] else none
  | ready, '_' :: r => if ready then groupedDigits base false r else none
  | _, c :: r => do return (← digitIn? base c) :: (← groupedDigits base true r)

def wholeOf? : Option Int := do
  let (neg, cs) := Decimal.signFrom cs
  let (base, ds) := basedDigits cs
  let ds := if base ≠ 10 && ds.head? = some '_' then ds.tail else ds
  let n := numberIn base (← groupedDigits base false ds)
  if base = 10 && n ≠ 0 && cs.head? = some '0' then none
  else some (if neg then -(n : Int) else n)

def fractionOf? : Option Float :=
  match Decimal.readFloat? (String.ofList cs) with
  | some x => some x
  | none =>
    if cs.getLast? = some 'f' then
      Decimal.readFloat? (String.ofList (cs.reverse.dropWhile (· == 'f')).reverse)
    else none

def flagOf? : Option Bool :=
  let s := String.ofList cs
  if ["true", "t", "1", "True"].contains s then some true
  else if ["false", "f", "0", "False"].contains s then some false
  else none

def elementTypeOf? : Option Int :=
  match wholeOf? cs with
  | some n => some n
  | none => (elementTypes.findIdx? (· == String.ofList cs)).map Int.ofNat

def isQuote : Bool := cs.head? = some '"' || cs.head? = some '\''

def quotedToken : Except Fault (List UInt8) := do
  require (isQuote cs && 2 ≤ cs.length && cs.head? == cs.getLast?) malformedText
  orFault malformedText (quotedBytes? (cs.tail.dropLast))

def quotedRun : Nat → TextReader (List UInt8)
  | 0 => return []
  | fuel + 1 => do
    let bs ← quotedToken (← peek)
    advance
    if isQuote (← peek) then return bs ++ (← quotedRun fuel) else return bs

def consume {α : Type} (f : List Char → Option α) : TextReader α := do
  let a ← orFault malformedText (f (← peek))
  advance
  return a

def wholeOfWidth? (bits : Nat) (cs : List Char) : Option Int :=
  (wholeOf? cs).filter fun n => -(Nat.pow 2 (bits - 1) : Int) ≤ n && n < Nat.pow 2 (bits - 1)

def readPlain : FieldType → TextReader Content
  | .int32 => return .int (← consume (wholeOfWidth? 32))
  | .int64 => return .int (← consume (wholeOfWidth? 64))
  | .elementType => return .int (← consume elementTypeOf?)
  | .single => return .real (Decimal.toSingle (← consume fractionOf?))
  | .double => return .real (← consume fractionOf?)
  | .flag => return .flag (← consume flagOf?)
  | .bytes => do return .bytes (← quotedRun ((← get).length + 1))
  | .text => do
    let bs ← quotedRun ((← get).length + 1)
    return .text (← orFault malformedText (Text.decodeUtf8 bs))
  | .message _ => throw malformedText

def mayFollow (t : MessageType) (f : FieldSpec) (fs : Fields) : Bool :=
  let exclusive := (t.fields.filter (·.exclusive)).map (·.name)
  let clash := f.exclusive && fs.any fun g => g.1 != f.name && exclusive.contains g.1
  let again := match lastOf fs f.name with
    | none => false
    | some c => f.exclusive || c.isSet
  !clash && (f.repeated || !again)

def readContents (one : TextReader Content) (f : FieldSpec) (fuel : Nat) : TextReader (List Content) := do
  if f.repeated then
    if ← accept '[' then
      if ← accept ']' then return []
      return ← more fuel
  return [← one]
where
  more : Nat → TextReader (List Content)
    | 0 => throw malformedText
    | fuel + 1 => do
      let c ← one
      if ← accept ']' then return [c]
      expect ','
      return c :: (← more fuel)

def readField (inner : MessageType → TextReader Fields) (t : MessageType) (fs : Fields) :
    TextReader Fields := do
  let name := String.ofList (← peek)
  let f ← orFault malformedText (t.fields.find? (·.name == name))
  unless mayFollow t f fs do throw malformedText
  advance
  let one : TextReader Content := match f.type with
    | .message m => return .message (← inner m)
    | type => readPlain type
  match f.type with
  | .message _ => let _ ← accept ':'
  | _ => expect ':'
  let cs ← readContents one f ((← get).length + 1)
  unless ← accept ',' do let _ ← accept ';'
  return fs ++ cs.map fun c => (f.name, c)

def readFields (inner : MessageType → TextReader Fields) (t : MessageType) (close : Char) :
    Nat → Fields → TextReader Fields
  | 0, _ => throw malformedText
  | fuel + 1, fs => do
    if ← accept close then return fs
    if (← get).isEmpty then throw malformedText
    readFields inner t close fuel (← readField inner t fs)

def readMessage : Nat → MessageType → TextReader Fields
  | 0, _ => throw malformedText
  | depth + 1, t => do
    let close ← if ← accept '<' then pure '>' else do
      expect '\x7b'
      pure '\x7d'
    readFields (readMessage depth) t close ((← get).length + 1) []

def readAll (depth : Nat) (t : MessageType) : Nat → Fields → TextReader Fields
  | 0, _ => throw malformedText
  | fuel + 1, fs => do
    if (← get).isEmpty then return fs
    readAll depth t fuel (← readField (readMessage depth) t fs)

def parse (depth : Nat) (t : MessageType) (fs : Fields) (text : String) : Except Fault Fields := do
  let ts := tokens text
  return (← (readAll depth t (ts.length + 1) fs).run ts).1

end NetBridge.Wire
