import NetBridge.Tensor.Basic

/-!
# Weight files

The weights of the layers lie in a file one after the other: a bias and weights, or with batch
normalisation the four vectors of the normalisation and then the weights.
-/

namespace NetBridge.Config

structure Reel (α : Type) where
  numbers : Array α
  place : Nat := 0

def Reel.take {α : Type} (r : Reel α) (n : Nat) : Except Fault (List α × Reel α) :=
  let part := r.numbers.extract r.place (r.place + n)
  if part.size = n then .ok (part.toList, { r with place := r.place + n }) else .error .value

/-- Single-precision numbers from their bytes, four a number, the lowest first; bytes that are left over
do not count. -/
def singles : List UInt8 → List Float
  | a :: b :: c :: d :: r =>
    let bits := a.toUInt32 + (b.toUInt32 <<< 8) + (c.toUInt32 <<< 16) + (d.toUInt32 <<< 24)
    (Float32.ofBits bits).toFloat :: singles r
  | _ => []

structure Affine (α : Type) where
  weight : Grid α
  bias : Grid α

structure Norm (α : Type) where
  bias : Grid α
  weight : Grid α
  mean : Grid α
  variance : Grid α

namespace Affine

variable {α : Type}

def stored (a : Affine α) : List α := a.bias.toList ++ a.weight.toList

end Affine

def Norm.stored {α : Type} (n : Norm α) (kernel : Grid α) : List α :=
  n.bias.toList ++ n.weight.toList ++ n.mean.toList ++ n.variance.toList ++ kernel.toList

structure Loading (α : Type) where
  reel : Reel α
  main : Affine α
  norm : Norm α

section

variable {α : Type}

def refill (n : Nat) (g : Grid α) : Run (Loading α) (Grid α) := do
  let (xs, reel) ← (← get).reel.take n
  let filled ← g.refilled xs
  modify fun s => { s with reel := reel }
  return filled

def loadWeight : Run (Loading α) Unit := do
  let old := (← get).main.weight
  let weight ← refill old.size old
  modify fun s => { s with main := { s.main with weight } }

def loadAffine : Run (Loading α) Unit := do
  let old := (← get).main.bias
  let bias ← refill old.size old
  modify fun s => { s with main := { s.main with bias } }
  loadWeight

def loadNormed : Run (Loading α) Unit := do
  let old := (← get).norm
  let n := old.bias.size
  let bias ← refill n old.bias
  modify fun s => { s with norm := { s.norm with bias } }
  let weight ← refill n old.weight
  modify fun s => { s with norm := { s.norm with weight } }
  let mean ← refill n old.mean
  modify fun s => { s with norm := { s.norm with mean } }
  let variance ← refill n old.variance
  modify fun s => { s with norm := { s.norm with variance } }
  loadWeight

end

/-! ## Batch normalisation folded into a convolution -/

def rounded (f : Float → Float → Float) (x y : Float) : Float := Decimal.toSingle (f x y)

def Norm.spread (n : Norm Float) (epsilon : Float) : Grid Float :=
  n.variance.map fun v => Decimal.toSingle (rounded (· + ·) v epsilon).sqrt

def Norm.folded (n : Norm Float) (kernel : Grid Float) (epsilon : Float) : Except Fault (List Float) := do
  let spread := n.spread (Decimal.toSingle epsilon)
  let shift ← Grid.zipWith (rounded (· / ·)) (← Grid.zipWith (rounded (· * ·)) n.mean n.weight) spread
  let bias ← Grid.zipWith (rounded (· - ·)) n.bias shift
  require (4 ≤ kernel.rank) .position
  let factor ← Grid.zipWith (rounded (· / ·)) n.weight spread
  let factor : Grid Float := ⟨[factor.size, 1, 1, 1], factor.data, by simp [volume, Grid.size]⟩
  let weight ← Grid.zipWith (rounded (· * ·)) kernel factor
  return bias.toList ++ weight.toList

/-! ## Written files -/

inductive StoredKind where
  | convolution | connected | normed | folded
  deriving DecidableEq

def StoredKind.hasNorm (k : StoredKind) : Bool := k = .normed || k = .folded

/-- The numbers of a layer in the order of the file. Of layers that lie elsewhere only connected ones can be written. -/
def Loading.written (l : Loading Float) (kind : StoredKind) (remote : Bool) (epsilon : Float) :
    Except Fault (List Float) := do
  let numbers ← match kind with
    | .convolution | .connected => pure l.main.stored
    | .normed => pure (l.norm.stored l.main.weight)
    | .folded => l.norm.folded l.main.weight epsilon
  require (!remote || kind = .connected) { cause := .undefined }
  return numbers

end NetBridge.Config
