import NetBridge.Tensor.Basic

/-!
# Tensors as text

A tensor is printed in rows between brackets, its numbers aligned: whole numbers at their ends,
fractions at their points, with at most eight decimals, or all with exponents. Rows that are too long
are broken.
-/

namespace NetBridge.Layout

open Decimal

def precision : Nat := 8

def lineWidth : Nat := 75

def roundQuotient (num den : Nat) : Nat :=
  let q := num / den
  let twice := 2 * (num % den)
  if twice < den then q else if twice > den then q + 1 else if q % 2 = 0 then q else q + 1

def scaled (m : Nat) (q e : Int) : Nat :=
  roundQuotient (m * Nat.pow 2 q.toNat * Nat.pow 10 e.toNat)
    (Nat.pow 2 (-q).toNat * Nat.pow 10 (-e).toNat)

def partsOf (e : Elem) (x : Float) : Parts :=
  if e = .float32 then .ofBits 23 8 x.toFloat32.toBits.toNat else .ofFloat x

def withoutZeros (s : String) : String :=
  String.ofList (s.toList.reverse.dropWhile (· == '0')).reverse

def positional : Parts → String × String
  | .nan | .infinite _ => ("", "")
  | .zero neg => (if neg then "-0" else "0", "")
  | .finite neg m q atPower =>
    let d := shortest m q atPower
    let places : Nat := ((d.count : Int) - d.point).toNat
    let (n, k) := if places ≤ precision then (d.digits * Nat.pow 10 (d.point - d.count).toNat, places)
      else (scaled m q precision, precision)
    let whole := (if neg then "-" else "") ++ toString (n / Nat.pow 10 k)
    (whole, if k = 0 then "" else withoutZeros (zeroPadded k (n % Nat.pow 10 k)))

def exponential : Parts → String × String × Int
  | .nan | .infinite _ => ("", "", 0)
  | .zero neg => (if neg then "-0" else "0", "", 0)
  | .finite neg m q atPower =>
    let d := shortest m q atPower
    let (digits, count, point) :=
      if d.count ≤ precision + 1 then (d.digits, d.count, d.point)
      else
        let n := scaled m q (precision + 1 - d.point)
        if n = Nat.pow 10 (precision + 1) then (1, 1, d.point + 1) else (n, precision + 1, d.point)
    let ds := zeroPadded count digits
    let sign := if neg then "-" else ""
    (sign ++ Text.take 1 ds, withoutZeros (Text.drop 1 ds), point - 1)

def widest (ss : List String) : Nat := ss.foldl (fun n s => max n s.length) 0

def isFinite (x : Float) : Bool := !(x.isNaN || x.isInf)

def needsExponents (xs : List Float) : Bool :=
  let sizes := (xs.filter fun x => isFinite x && x != 0).map Float.abs
  match sizes with
  | [] => false
  | x :: rest =>
    let most := rest.foldl max x
    let least := rest.foldl min x
    most ≥ 1e8 || least < 0.0001 || most / least > 1000.0

def specialText (x : Float) : String := if x.isNaN then "nan" else if x > 0 then "inf" else "-inf"

def alignHalves (xs : List Float) (halves : List (String × String)) : List String :=
  let finite := (xs.zip halves).filter fun p => isFinite p.1
  let left := widest (finite.map fun p => p.2.1)
  let right := widest (finite.map fun p => p.2.2)
  let special := widest ((xs.filter fun x => !isFinite x).map specialText)
  let left := max left (special - (right + 1))
  (xs.zip halves).map fun (x, a, b) =>
    if isFinite x then Text.padLeft left a ++ "." ++ Text.padRight right b
    else Text.padLeft (left + right + 1) (specialText x)

def fractions (e : Elem) (xs : List Float) : List String :=
  let parts := xs.map (partsOf e)
  if needsExponents xs then
    let raw := parts.map exponential
    let finite := ((xs.zip raw).filter fun p => isFinite p.1).map (·.2)
    let decimals := widest (finite.map fun p => p.2.1)
    let width := max 2 (widest (finite.map fun p => toString p.2.2.natAbs))
    alignHalves xs (raw.map fun (a, b, n) =>
      (a, b ++ repeated '0' (decimals - b.length) ++ "e" ++ (if n < 0 then "-" else "+") ++
        zeroPadded width n.natAbs))
  else alignHalves xs (parts.map positional)

def cellTexts (t : Tensor) : List String :=
  if t.elem.isReal then fractions t.elem (t.toList.map Scalar.toFloat)
  else
    let texts := t.toList.map fun s =>
      if t.elem = .bool then (if s.toFloat == 0 then "False" else " True") else s.text
    let width := widest texts
    texts.map (Text.padLeft width)

def addWord (width : Nat) (indent : String) (s : String × String) (word : String) : String × String :=
  let (done, line) := s
  if line.length + word.length > width && line.length > indent.length then
    (done ++ Text.trimEnd line ++ "\n", indent ++ word)
  else (done, line ++ word)

def row (indent : String) (width : Nat) (words : List String) : String :=
  let fit := width - 1
  let add (s : String × String) (w : String) : String × String :=
    let (done, line) := addWord fit indent s w
    (done, line ++ " ")
  let (done, line) := words.dropLast.foldl add ("", indent)
  let (done, line) := words.getLast?.elim (done, line) (addWord fit indent (done, line))
  "[" ++ Text.drop indent.length (done ++ line) ++ "]"

def rows (indent : String) (width : Nat) : List Nat → List String → String
  | [], words => words.headD ""
  | [_], words => row indent width words
  | n :: d :: dims, words =>
    let size := volume (d :: dims)
    let inner := (List.range n).map fun i =>
      rows (indent ++ " ") (width - 1) (d :: dims) ((words.drop (i * size)).take size)
    let gap := String.ofList (List.replicate (dims.length + 1) '\n')
    "[" ++ Text.join (gap ++ indent) inner ++ "]"

end NetBridge.Layout

def NetBridge.Tensor.display (t : NetBridge.Tensor) : String :=
  if t.rank = 0 then String.join (t.toList.map NetBridge.Scalar.text)
  else if t.size = 0 then "[]"
  else NetBridge.Layout.rows " " NetBridge.Layout.lineWidth t.shape (NetBridge.Layout.cellTexts t)
