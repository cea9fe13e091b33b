import NetBridge.Text.LetterCase

/-!
# Text

Splitting, trimming, replacing and padding. The functions work on lists of characters, where
induction is at hand, and are lifted to strings at the end of each section.
-/

namespace NetBridge.Text

/-! ## Blanks -/

def isBlank (c : Char) : Bool :=
  let n := c.toNat
  (9 ≤ n && n ≤ 13) || (28 ≤ n && n ≤ 32) || n == 0x85 || n == 0xa0 || n == 0x1680 ||
    (0x2000 ≤ n && n ≤ 0x200a) || n == 0x2028 || n == 0x2029 || n == 0x202f || n == 0x205f ||
    n == 0x3000

def trimBy (p : Char → Bool) (cs : List Char) : List Char :=
  ((cs.dropWhile p).reverse.dropWhile p).reverse

variable (s : String)

def trim : String := String.ofList (trimBy isBlank s.toList)

def trimEnd : String := String.ofList (s.toList.reverse.dropWhile isBlank).reverse

/-! ## Splitting -/

def splitChars (sep : Char) : List Char → List (List Char)
  | [] => [[]]
  | c :: r =>
    match splitChars sep r with
    | [] => [[c]]
    | part :: parts => if c = sep then [] :: part :: parts else (c :: part) :: parts

def split (sep : Char) (s : String) : List String := (splitChars sep s.toList).map String.ofList

def splitFirst (sep : Char) (s : String) : String × Option String :=
  let cs := s.toList
  let head := cs.takeWhile (· != sep)
  match cs.dropWhile (· != sep) with
  | [] => (s, none)
  | _ :: rest => (String.ofList head, some (String.ofList rest))

def join (sep : String) (parts : List String) : String := String.intercalate sep parts

/-! ## Replacing and padding -/

def replaceChar (a b : Char) (s : String) : String :=
  String.ofList (s.toList.map fun c => if c = a then b else c)

def startsWithChars : List Char → List Char → Bool
  | [], _ => true
  | _ :: _, [] => false
  | a :: as, b :: bs => a == b && startsWithChars as bs

def startsWith (s start : String) : Bool := startsWithChars start.toList s.toList

def endsWith (s tail : String) : Bool :=
  startsWithChars tail.toList.reverse s.toList.reverse

def occursIn (part : List Char) : List Char → Bool
  | [] => part.isEmpty
  | c :: r => startsWithChars part (c :: r) || occursIn part r

def holds (s part : String) : Bool := occursIn part.toList s.toList

/-- The characters in front of the first place where `part` occurs; all if it does not. -/
def beforeChars (part : List Char) : List Char → List Char
  | [] => []
  | c :: r => if startsWithChars part (c :: r) then [] else c :: beforeChars part r

def before (part s : String) : String := String.ofList (beforeChars part.toList s.toList)

def replaceChars (a b : List Char) : Nat → List Char → List Char
  | 0, cs => cs
  | _ + 1, [] => []
  | fuel + 1, c :: r =>
    if startsWithChars a (c :: r) then b ++ replaceChars a b fuel ((c :: r).drop a.length)
    else c :: replaceChars a b fuel r

def replace (s a b : String) : String :=
  if a.isEmpty then s
  else String.ofList (replaceChars a.toList b.toList (s.length + 1) s.toList)

def blanks (n : Nat) : String := String.ofList (List.replicate n ' ')

def padRight (width : Nat) (s : String) : String := s ++ blanks (width - s.length)

def padLeft (width : Nat) (s : String) : String := blanks (width - s.length) ++ s

def times (s : String) : Nat → String
  | 0 => ""
  | n + 1 => s ++ times s n

def drop (n : Nat) (s : String) : String := String.ofList (s.toList.drop n)

def take (n : Nat) (s : String) : String := String.ofList (s.toList.take n)

def dropEnd (n : Nat) (s : String) : String := take (s.length - n) s

def afterLast (c : Char) (s : String) : String :=
  String.ofList (s.toList.reverse.takeWhile (· != c)).reverse

def lines : List String := split '\n' s

def endsLine (c : Char) : Bool :=
  let n := c.toNat
  (10 ≤ n && n ≤ 13) || (28 ≤ n && n ≤ 30) || n = 0x85 || n = 0x2028 || n = 0x2029

/-- The lines of a text, by any character that ends a line; the last line need not be ended. The first
argument holds the line read so far, in reverse. -/
def splitLinesFrom : List Char → List Char → List (List Char)
  | [], [] => []
  | acc, [] => [acc.reverse]
  | acc, '\r' :: '\n' :: r => acc.reverse :: splitLinesFrom [] r
  | acc, c :: r => if endsLine c then acc.reverse :: splitLinesFrom [] r else splitLinesFrom (c :: acc) r

def splitLines : List String := (splitLinesFrom [] s.toList).map String.ofList

def unifyLineEnds : List Char → List Char
  | [] => []
  | '\r' :: '\n' :: r => '\n' :: unifyLineEnds r
  | '\r' :: r => '\n' :: unifyLineEnds r
  | c :: r => c :: unifyLineEnds r

/-! ## Names made of words

Names are written with low lines between words (`inner_product`) or with a capital at the start of
each word (`InnerProduct`). -/

def isDecimal (c : Char) : Bool := '0' ≤ c && c ≤ '9'

/-- Puts a low line before every capital that small letters follow, unless it starts the text or a
line. The small letters of such a word are passed over. -/
def breakBefore : Bool → List Char → List Char
  | _, [] => []
  | _, [c] => [c]
  | inWord, c :: u :: r =>
    if inWord && isSmall c then c :: breakBefore true (u :: r)
    else if c != '\n' && isCapital u && (r.head?.map isSmall).getD false then
      c :: '_' :: u :: breakBefore true r
    else c :: breakBefore false (u :: r)

def breakInner : List Char → List Char
  | [] => []
  | [c] => [c]
  | c :: u :: r =>
    if (isSmall c || isDecimal c) && isCapital u then c :: '_' :: breakInner (u :: r)
    else c :: breakInner (u :: r)

def snake : String :=
  lower (String.ofList (breakInner (breakBefore false s.toList)))

def pascal : String := String.join ((split '_' s).map title)

def referent : String := String.join ((split ':' (trim s)).dropLast)

/-! ## Paths -/

def fileName (path : String) : String := afterLast '/' path

def directory (path : String) : String :=
  let head := (path.toList.reverse.dropWhile (· != '/'))
  let trimmed := head.dropWhile (· == '/')
  String.ofList (if trimmed.isEmpty then head else trimmed).reverse

def joinPath (dir path : String) : String :=
  if startsWith path "/" || dir.isEmpty then path
  else if endsWith dir "/" then dir ++ path
  else dir ++ "/" ++ path

/-! ## UTF-8

Decoding accepts exactly the well-formed sequences: shortest forms only, no surrogates, nothing beyond
the last code point. -/

def encodeUtf8 : List UInt8 := s.toUTF8.toList

def continuation? (b : UInt8) : Option Nat :=
  if 0x80 ≤ b.toNat && b.toNat < 0xc0 then some (b.toNat - 0x80) else none

def decodeChars : List UInt8 → Option (List Char)
  | [] => some []
  | a :: r =>
    let n := a.toNat
    if n < 0x80 then (decodeChars r).map (Char.ofNat n :: ·)
    else if n < 0xc2 then none
    else if n < 0xe0 then
      match r with
      | b :: r' => do
        let x ← continuation? b
        let cs ← decodeChars r'
        return Char.ofNat ((n - 0xc0) * 64 + x) :: cs
      | [] => none
    else if n < 0xf0 then
      match r with
      | b :: c :: r' => do
        let x ← continuation? b
        let y ← continuation? c
        let code := (n - 0xe0) * 4096 + x * 64 + y
        if code < 0x800 || (0xd800 ≤ code && code < 0xe000) then none
        else
          let cs ← decodeChars r'
          return Char.ofNat code :: cs
      | _ => none
    else if n < 0xf5 then
      match r with
      | b :: c :: d :: r' => do
        let x ← continuation? b
        let y ← continuation? c
        let z ← continuation? d
        let code := (n - 0xf0) * 262144 + x * 4096 + y * 64 + z
        if code < 0x10000 || 0x110000 ≤ code then none
        else
          let cs ← decodeChars r'
          return Char.ofNat code :: cs
      | _ => none
    else none

def decodeUtf8 (bs : List UInt8) : Option String := (decodeChars bs).map String.ofList

/-! ## Base 64

A last group that is short is filled up with equal signs. -/

def base64Char (n : Nat) : Char :=
  if n < 26 then Char.ofNat (n + 65)
  else if n < 52 then Char.ofNat (n + 71)
  else if n < 62 then Char.ofNat (n - 4)
  else if n = 62 then '+' else '/'

def base64Chars : List UInt8 → List Char
  | [] => []
  | [a] =>
    let n := a.toNat * 16
    [base64Char (n / 64), base64Char (n % 64), '=', '=']
  | [a, b] =>
    let n := (a.toNat * 256 + b.toNat) * 4
    [base64Char (n / 4096), base64Char (n / 64 % 64), base64Char (n % 64), '=']
  | a :: b :: c :: r =>
    let n := (a.toNat * 256 + b.toNat) * 256 + c.toNat
    base64Char (n / 262144) :: base64Char (n / 4096 % 64) :: base64Char (n / 64 % 64) ::
      base64Char (n % 64) :: base64Chars r

def base64 (bs : List UInt8) : String := String.ofList (base64Chars bs)

end NetBridge.Text
