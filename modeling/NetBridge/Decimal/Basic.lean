import NetBridge.Text.Basic

/-!
# Decimal numbers

A floating-point number is written with the fewest digits that read back, positionally while its
decimal exponent lies from -4 to 15 and with an exponent otherwise. The digits are found by exact
arithmetic.
-/

namespace NetBridge.Decimal

structure Digits where
  digits : Nat
  count : Nat
  point : Int
  deriving DecidableEq, Repr

structure Bracket where
  low : Nat
  mid : Nat
  high : Nat
  den : Nat
  closed : Bool
  deriving Repr

def Bracket.ofBinary (m : Nat) (q : Int) (atPower : Bool) : Bracket :=
  let s := q - 2
  let up := Nat.pow 2 s.toNat
  { low := (4 * m - (if atPower then 1 else 2)) * up
    mid := 4 * m * up
    high := (4 * m + 2) * up
    den := Nat.pow 2 (-s).toNat
    closed := m % 2 = 0 }

def Bracket.holds (b : Bracket) (up down c : Nat) : Bool :=
  let v := c * (b.den * down)
  if b.closed then b.low * up ≤ v && v ≤ b.high * up else b.low * up < v && v < b.high * up

def digitCount (n : Nat) : Nat := (Nat.toDigits 10 n).length

def leadingZeros (num den : Nat) : Nat → Nat → Nat
  | 0, j => j
  | fuel + 1, j => if num * Nat.pow 10 j ≥ den then j else leadingZeros num den fuel (j + 1)

def magnitude (num den : Nat) : Int :=
  if num ≥ den then digitCount (num / den) else 1 - (leadingZeros num den 1100 1 : Int)

def Bracket.atLength (b : Bracket) (k : Int) (n : Nat) : Option Nat :=
  let e := k - n
  let up := Nat.pow 10 (-e).toNat
  let down := Nat.pow 10 e.toNat
  let num := b.mid * up
  let den := b.den * down
  let c := num / den
  let above := c + 1
  match b.holds up down c && c != 0, b.holds up down above with
  | true, false => some c
  | false, true => some above
  | true, true => if 2 * (num - c * den) ≤ den then some c else some above
  | false, false => none

def trimZeros (digits count : Nat) : Nat × Nat :=
  match count with
  | 0 => (digits, 0)
  | n + 1 => if n != 0 && digits % 10 == 0 then trimZeros (digits / 10) n else (digits, n + 1)

def Bracket.search (b : Bracket) (k : Int) : Nat → Nat → Digits
  | 0, n => { digits := b.mid / b.den, count := n, point := k }
  | fuel + 1, n =>
    match b.atLength k n with
    | some c =>
      let len := digitCount c
      let (d, count) := trimZeros c len
      { digits := d, count := count, point := k + ((len : Int) - n) }
    | none => b.search k fuel (n + 1)

def shortest (m : Nat) (q : Int) (atPower : Bool) : Digits :=
  let b := Bracket.ofBinary m q atPower
  b.search (magnitude b.mid b.den) 20 1

structure Style where
  least : Int
  limit : Int
  keepsPoint : Bool
  exponentDigits : Nat

def Style.plain : Style := { least := -4, limit := 16, keepsPoint := true, exponentDigits := 2 }

def repeated (c : Char) (n : Nat) : String := String.ofList (List.replicate n c)

def zeroPadded (width n : Nat) : String :=
  let s := toString n
  repeated '0' (width - s.length) ++ s

def Style.write (st : Style) (d : Digits) : String :=
  let ds := toString d.digits
  let e := d.point - 1
  if st.least ≤ e && e < st.limit then
    if d.point ≤ 0 then "0." ++ repeated '0' (-d.point).toNat ++ ds
    else
      let whole := d.point.toNat
      if ds.length ≤ whole then
        ds ++ repeated '0' (whole - ds.length) ++ (if st.keepsPoint then ".0" else "")
      else String.ofList (ds.toList.take whole) ++ "." ++ String.ofList (ds.toList.drop whole)
  else
    let mantissa :=
      if ds.length ≤ 1 then ds
      else String.ofList (ds.toList.take 1) ++ "." ++ String.ofList (ds.toList.drop 1)
    let sign := if e < 0 then "-" else "+"
    mantissa ++ "e" ++ sign ++ zeroPadded st.exponentDigits e.natAbs

inductive Parts where
  | nan
  | infinite (negative : Bool)
  | zero (negative : Bool)
  | finite (negative : Bool) (m : Nat) (q : Int) (atPower : Bool)

def Parts.ofBits (fraction exponent : Nat) (word : Nat) : Parts :=
  let frac := word % Nat.pow 2 fraction
  let expo := word / Nat.pow 2 fraction % Nat.pow 2 exponent
  let neg := word / Nat.pow 2 (fraction + exponent) % 2 = 1
  let bias : Int := (Nat.pow 2 (exponent - 1) : Int) - 1 + fraction
  if expo = Nat.pow 2 exponent - 1 then (if frac = 0 then .infinite neg else .nan)
  else if expo = 0 then
    if frac = 0 then .zero neg else .finite neg frac (1 - bias) false
  else .finite neg (Nat.pow 2 fraction + frac) (expo - bias) (frac = 0 && expo != 1)

def Style.writeParts (st : Style) : Parts → String
  | .nan => "nan"
  | .infinite neg => if neg then "-inf" else "inf"
  | .zero neg => (if neg then "-" else "") ++ (if st.keepsPoint then "0.0" else "0")
  | .finite neg m q atPower => (if neg then "-" else "") ++ st.write (shortest m q atPower)

def Parts.ofFloat (x : Float) : Parts := .ofBits 52 11 x.toBits.toNat

def floatText (x : Float) : String := Style.plain.writeParts (.ofFloat x)

def singleText (x : Float32) : String := Style.plain.writeParts (.ofBits 23 8 x.toBits.toNat)

def toSingle (x : Float) : Float :=
  let limit : Float := 340282346638528859811704183484516925440.0
  if x > limit then 1.0 / 0.0 else if x < -limit then -1.0 / 0.0 else x.toFloat32.toFloat

/-! ## Reading numbers

Blanks around a number are allowed, a sign, digits that may be grouped by single underscores, for
fractions also a point, an exponent, and words for infinity and for what is no number. -/

def digitsFrom : List Char → Nat → Nat → Nat × Nat × List Char
  | c :: r, acc, n =>
    if c.isDigit then digitsFrom r (acc * 10 + (c.toNat - 48)) (n + 1)
    else if c = '_' then
      match r with
      | d :: _ => if d.isDigit && n != 0 then digitsFrom r acc n else (acc, n, c :: r)
      | [] => (acc, n, c :: r)
    else (acc, n, c :: r)
  | [], acc, n => (acc, n, [])

def signFrom : List Char → Bool × List Char
  | '-' :: r => (true, r)
  | '+' :: r => (false, r)
  | r => (false, r)

def readInt? (s : String) : Option Int :=
  let (neg, cs) := signFrom (Text.trimBy Text.isBlank s.toList)
  match digitsFrom cs 0 0 with
  | (v, n, []) => if n = 0 then none else some (if neg then -(v : Int) else v)
  | _ => none

def scaled (v : Nat) (e : Int) : Float :=
  if v = 0 then 0.0 else Float.ofScientific v (e < 0) e.natAbs

/-- An exponent, or zero if there is none; nothing if it is malformed. -/
def exponentFrom : List Char → Option Int
  | [] => some 0
  | c :: r =>
    if c = 'e' || c = 'E' then
      let (neg, cs) := signFrom r
      match digitsFrom cs 0 0 with
      | (v, n, []) => if n = 0 then none else some (if neg then -(v : Int) else v)
      | _ => none
    else none

def unsignedFloat? (cs : List Char) : Option Float :=
  let word := Text.lower (String.ofList cs)
  if word = "inf" || word = "infinity" then some (1.0 / 0.0)
  else if word = "nan" then some (0.0 / 0.0)
  else
    let (whole, n, r) := digitsFrom cs 0 0
    match r with
    | '.' :: r' =>
      if r'.head?.any (· == '_') then none
      else
        let (v, m, r'') := digitsFrom r' whole 0
        if n + m = 0 then none else (exponentFrom r'').map fun e => scaled v (e - m)
    | _ => if n = 0 then none else (exponentFrom r).map fun e => scaled whole e

def readFloat? (s : String) : Option Float :=
  let (neg, cs) := signFrom (Text.trimBy Text.isBlank s.toList)
  (unsignedFloat? cs).map fun x => if neg then -x else x

end NetBridge.Decimal
