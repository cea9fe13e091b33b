import NetBridge.Decimal.Basic
import NetBridge.Fault

/-!
# Tensors

A grid is a block of cells of any rank, stored row by row. A tensor is a grid of numbers together with
the type of its elements; single-precision numbers are kept as doubles, so every operation on them
rounds.
-/

namespace NetBridge

def volume : List Nat → Nat
  | [] => 1
  | d :: ds => d * volume ds

def rowMajor : List Nat → List Nat → Nat
  | _ :: ds, i :: is => i * volume ds + rowMajor ds is
  | _, _ => 0

def positions : List Nat → List (List Nat)
  | [] => [[]]
  | d :: ds => (List.range d).flatMap fun i => (positions ds).map (i :: ·)

theorem length_positions (ds : List Nat) : (positions ds).length = volume ds := by
  induction ds with
  | nil => rfl
  | cons d ds ih => simp [positions, volume, ih, List.map_const', List.sum_replicate_nat]

theorem volume_squeezed (ds : List Nat) : volume (ds.filter (· != 1)) = volume ds := by
  induction ds with
  | nil => rfl
  | cons d ds ih =>
    by_cases h : d = 1
    · simp [h, ih, volume]
    · simp [h, ih, volume]

/-- A block of cells with as many cells as its shape has places. -/
structure Grid (α : Type) where
  shape : List Nat
  data : Array α
  full : data.size = volume shape
  deriving Repr

namespace Grid

variable {α β : Type}

instance : Inhabited (Grid α) := ⟨⟨[0], #[], rfl⟩⟩

variable (g : Grid α)

def rank : Nat := g.shape.length

def size : Nat := g.data.size

def cell [Inhabited α] (g : Grid α) (ix : List Nat) : α :=
  g.data.getD (rowMajor g.shape ix) default

def ofFn (shape : List Nat) (f : List Nat → α) : Grid α :=
  ⟨shape, ((positions shape).map f).toArray, by simp [length_positions]⟩

def ofList (xs : List α) : Grid α := ⟨[xs.length], xs.toArray, by simp [volume]⟩

def toList : List α := g.data.toList

def map (f : α → β) (g : Grid α) : Grid β := ⟨g.shape, g.data.map f, by simp [g.full]⟩

def sourcePosition (perm ix : List Nat) : List Nat :=
  (List.range perm.length).map fun a => ix.getD (perm.idxOf a) 0

def permute [Inhabited α] (perm : List Nat) (g : Grid α) : Grid α :=
  ofFn (perm.map fun a => g.shape.getD a 0) fun ix => g.cell (sourcePosition perm ix)

def axis (rank : Nat) (a : Int) : Except Fault Nat :=
  let b := if a < 0 then a + rank else a
  if 0 ≤ b && b < rank then .ok b.toNat else .error { cause := .axis }

def transpose [Inhabited α] (axes : List Int) (g : Grid α) : Except Fault (Grid α) := do
  require (axes.length == g.rank) .value
  let perm ← axes.mapM (axis g.rank)
  require (perm.eraseDups.length == perm.length) .value
  return g.permute perm

def completeShape (size : Nat) (dims : List Int) : Except Fault (List Nat) := do
  match dims.filter (· < 0) with
  | [] =>
    let ds := dims.map Int.toNat
    require (volume ds == size) .value
    return ds
  | [d] =>
    require (d == -1) .value
    let known := volume ((dims.filter (· ≥ 0)).map Int.toNat)
    require (known != 0 && size % known == 0) .value
    return dims.map fun d => if d < 0 then size / known else d.toNat
  | _ => throw .value

theorem volume_completed (n : Nat) (dims : List Int) : volume (dims.map fun d => if d < 0 then n else d.toNat) =
    volume (List.replicate (dims.filter (· < 0)).length n) * volume ((dims.filter (· ≥ 0)).map Int.toNat) := by
  induction dims with
  | nil => rfl
  | cons d dims ih =>
    by_cases h : d < 0
    · have h' : ¬0 ≤ d := Int.not_le.mpr h
      simp [h, h', List.replicate_succ, volume, ih, Nat.mul_assoc]
    · have h' : 0 ≤ d := Int.not_lt.mp h
      simp [h, h', volume, ih, Nat.mul_left_comm]

theorem volume_completeShape {size : Nat} {dims : List Int} {ds : List Nat} (h : completeShape size dims = .ok ds) :
    volume ds = size := by
  unfold completeShape at h
  split at h
  · by_cases hsize : volume (dims.map Int.toNat) = size
    · simp [hsize, require, bind, Except.bind, pure, Except.pure] at h
      exact h ▸ hsize
    · simp [hsize, require, bind, Except.bind] at h
  · rename_i d hneg
    have hvolume := volume_completed (size / volume ((dims.filter (· ≥ 0)).map Int.toNat)) dims
    simp only [hneg, List.length_singleton, List.replicate_one, volume, Nat.mul_one] at hvolume
    simp only [require, bind, Except.bind, pure, Except.pure] at h
    split at h
    · cases h
    · split at h
      · cases h
      · rename_i hknown
        cases h
        split at hknown
        · rename_i hmod
          simp only [Bool.and_eq_true, beq_iff_eq] at hmod
          rw [hvolume, Nat.div_mul_cancel (Nat.dvd_of_mod_eq_zero hmod.2)]
        · cases hknown
  · cases h

def reshape (dims : List Int) (g : Grid α) : Except Fault (Grid α) :=
  match h : completeShape g.size dims with
  | .ok ds => .ok ⟨ds, g.data, (volume_completeShape h).symm⟩
  | .error e => .error e

def squeeze : Grid α := ⟨g.shape.filter (· != 1), g.data, g.full.trans (volume_squeezed _).symm⟩

/-- Other cells in the same shape. -/
def refilled (xs : List α) : Except Fault (Grid α) :=
  if h : xs.length = g.size then .ok ⟨g.shape, xs.toArray, h.trans g.full⟩ else .error .value

def swapAxes [Inhabited α] (a b : Int) (g : Grid α) : Except Fault (Grid α) := do
  let i ← axis g.rank a
  let j ← axis g.rank b
  let swap (k : Nat) : Nat := if k = i then j else if k = j then i else k
  return g.permute ((List.range g.rank).map swap)

def filled (shape : List Nat) (a : α) : Grid α := ⟨shape, Array.replicate (volume shape) a, Array.size_replicate⟩

def stretched : List Nat → List Nat → Option (List Nat)
  | a, b =>
    let n := max a.length b.length
    let a' := List.replicate (n - a.length) 1 ++ a
    let b' := List.replicate (n - b.length) 1 ++ b
    (a'.zip b').mapM fun (x, y) =>
      if x = y then some x else if x = 1 then some y else if y = 1 then some x else none

def stretchedCell [Inhabited α] (g : Grid α) (ix : List Nat) : α :=
  let own := ix.drop (ix.length - g.rank)
  g.cell ((own.zip g.shape).map fun (i, d) => if d = 1 then 0 else i)

def zipWith [Inhabited α] [Inhabited β] {γ : Type} (f : α → β → γ) (g : Grid α) (h : Grid β) :
    Except Fault (Grid γ) :=
  match stretched g.shape h.shape with
  | some s => .ok (ofFn s fun ix => f (g.stretchedCell ix) (h.stretchedCell ix))
  | none => .error .value

end Grid

/-! ## Numbers and tensors -/

inductive Elem where
  | bool | int8 | int16 | int32 | int64 | uint8 | uint16 | uint32 | uint64
  | float16 | float32 | float64
  deriving DecidableEq, Repr, Inhabited

namespace Elem

def isReal : Elem → Bool
  | .float16 | .float32 | .float64 => true
  | _ => false

def name : Elem → String
  | .bool => "bool" | .int8 => "int8" | .int16 => "int16" | .int32 => "int32" | .int64 => "int64"
  | .uint8 => "uint8" | .uint16 => "uint16" | .uint32 => "uint32" | .uint64 => "uint64"
  | .float16 => "float16" | .float32 => "float32" | .float64 => "float64"

def all : List Elem :=
  [.bool, .int8, .int16, .int32, .int64, .uint8, .uint16, .uint32, .uint64,
   .float16, .float32, .float64]

def ofName? (s : String) : Option Elem := all.find? fun e => e.name == s

def bits : Elem → Nat
  | .int8 | .uint8 => 8
  | .int16 | .uint16 => 16
  | .int32 | .uint32 => 32
  | .bool => 1
  | _ => 64

def isSigned : Elem → Bool
  | .int8 | .int16 | .int32 | .int64 => true
  | _ => false

end Elem

inductive Scalar where
  | int (n : Int)
  | real (x : Float)
  deriving Repr, Inhabited

namespace Scalar

def toFloat : Scalar → Float
  | .int n => Float.ofInt n
  | .real x => x

def truncate (x : Float) : Int :=
  match Decimal.Parts.ofFloat x with
  | .finite neg m q _ =>
    let n : Nat := if q ≥ 0 then m * Nat.pow 2 q.toNat else m / Nat.pow 2 (-q).toNat
    if neg then -(n : Int) else n
  | _ => 0

def cast (e : Elem) (s : Scalar) : Scalar :=
  match e with
  | .float64 => .real s.toFloat
  | .float32 | .float16 => .real (Decimal.toSingle s.toFloat)
  | .bool =>
    match s with
    | .int n => .int (if n = 0 then 0 else 1)
    | .real x => .int (if x == 0 then 0 else 1)
  | _ =>
    let n := match s with
      | .int n => n
      | .real x => truncate x
    let m : Int := Nat.pow 2 e.bits
    let r := Int.emod n m
    .int (if e.isSigned && r ≥ m / 2 then r - m else r)

def text : Scalar → String
  | .int n => toString n
  | .real x => Decimal.floatText x

def same : Scalar → Scalar → Bool
  | .int m, .int n => m == n
  | a, b => a.toFloat == b.toFloat

end Scalar

structure Tensor where
  elem : Elem
  cells : Grid Scalar
  deriving Repr, Inhabited

namespace Tensor

variable (t : Tensor)

def shape : List Nat := t.cells.shape

def rank : Nat := t.cells.rank

def size : Nat := t.cells.size

def ofInts (ns : List Int) : Tensor := ⟨.int64, Grid.ofList (ns.map .int)⟩

def ofFloats (xs : List Float) : Tensor := ⟨.float64, Grid.ofList (xs.map .real)⟩

def ofSingles (xs : List Float) : Tensor :=
  ⟨.float32, Grid.ofList (xs.map fun x => .real (Decimal.toSingle x))⟩

def transpose (axes : List Int) (t : Tensor) : Except Fault Tensor :=
  (t.cells.transpose axes).map fun g => ⟨t.elem, g⟩

def reshape (dims : List Int) (t : Tensor) : Except Fault Tensor :=
  (t.cells.reshape dims).map fun g => ⟨t.elem, g⟩

def squeeze : Tensor := ⟨t.elem, t.cells.squeeze⟩

def swapAxes (a b : Int) (t : Tensor) : Except Fault Tensor :=
  (t.cells.swapAxes a b).map fun g => ⟨t.elem, g⟩

def cast (e : Elem) (t : Tensor) : Tensor := ⟨e, t.cells.map (Scalar.cast e)⟩

def zeros (e : Elem) (shape : List Nat) : Tensor := ⟨e, Grid.filled shape (Scalar.cast e (.int 0))⟩

def toList : List Scalar := t.cells.toList

end Tensor

/-! ## Arithmetic

As soon as a fraction takes part, the result is one. A quotient is always a fraction. -/

namespace Scalar

def lift (onInt : Int → Int → Int) (onReal : Float → Float → Float) : Scalar → Scalar → Scalar
  | .int m, .int n => .int (onInt m n)
  | a, b => .real (onReal a.toFloat b.toFloat)

def add : Scalar → Scalar → Scalar := lift (· + ·) (· + ·)

def sub : Scalar → Scalar → Scalar := lift (· - ·) (· - ·)

def mul : Scalar → Scalar → Scalar := lift (· * ·) (· * ·)

instance : Add Scalar := ⟨add⟩

instance : Sub Scalar := ⟨sub⟩

instance : Mul Scalar := ⟨mul⟩

instance (n : Nat) : OfNat Scalar n := ⟨.int n⟩

def isZero : Scalar → Bool
  | .int n => n == 0
  | .real x => x == 0

def quotient (a b : Scalar) : Except Fault Scalar :=
  if b.isZero then .error { cause := .zeroDivisor } else .ok (.real (a.toFloat / b.toFloat))

def whole : Scalar → Int
  | .int n => n
  | .real x => truncate x

end Scalar

end NetBridge
