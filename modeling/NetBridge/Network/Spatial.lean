import NetBridge.Value.Basic

/-!
# Pads and axes

Pads of a layer are listed flat: first the pads at the start of every axis, then those at the end.
Some frameworks take them as one pair an axis instead (`Padding.pairs`).
-/

namespace NetBridge

namespace Padding

variable (pads : List Int)

def pairs : Except Fault (List (Int × Int)) :=
  let n := pads.length / 2
  if pads.length % 2 = 0 then .ok ((pads.take n).zip (pads.drop n)) else .error .value

def flat (ps : List (Int × Int)) : List Int := ps.map (·.1) ++ ps.map (·.2)

def unpaired {α : Type} : List α → Except Fault (List α × List α)
  | [] => .ok ([], [])
  | [_] => .error .condition
  | a :: b :: r => do
    let (starts, ends) ← unpaired r
    return (a :: starts, b :: ends)

def unpair {α : Type} (pads : List α) : Except Fault (List α) := do
  let (starts, ends) ← unpaired pads
  return starts ++ ends

def fromPairs (v : Value) : Except Fault Value := do return .list (← unpair (← v.flatten))

def toPairs (v : Value) : Except Fault Value := do
  let pads ← v.flatten
  require (pads.length % 2 = 0) .value
  let n := pads.length / 2
  return .list (((pads.take n).zip (pads.drop n)).map fun p => .list [p.1, p.2])

/-- The sum of pads, which are numbers of 64 bits; what does not fit into them is lost. -/
def total : Int := pads.foldr (· + ·) 0 % Nat.pow 2 64

def isNone : Bool := total pads == 0

def isNonePairs (ps : List (Int × Int)) : Bool := total (ps.map fun p => p.1 + p.2) == 0

/-- The pads attribute of a layer; a missing one cannot be laid out. -/
def ofValue : Value → Except Fault (List Int)
  | .list vs => (Value.list vs).toInts
  | _ => .error .value

/-- Are there no pads in all? A missing attribute cannot be added up. -/
def isNoneValue : Value → Except Fault Bool
  | .list vs => do return isNone (← (Value.list vs).toInts)
  | .int n => .ok (n == 0)
  | _ => .error .kind

def halve (total : Int) : Int × Int := (total.fdiv 2, total - total.fdiv 2)

/-- The number of steps of a window over an extent when no output position is lost. -/
def sameExtent (extent stride : Int) : Int := (extent + stride - 1).fdiv stride

def sameTotal (extent kernel stride : Int) : Int :=
  max 0 ((sameExtent extent stride - 1) * stride + kernel - extent)

def samePairs : List Int → List Int → List Int → Except Fault (List (Int × Int))
  | [], _, _ => .ok []
  | x :: xs, ks, ss =>
    match ss with
    | [] => .error .position
    | s :: ss =>
      if s = 0 then .error { cause := .zeroDivisor }
      else
        match ks with
        | [] => .error .position
        | k :: ks => do
          let rest ← samePairs xs ks ss
          return halve (sameTotal x k s) :: rest

def samePairsOf (kernel : Value) : Nat → List Value → List Value → Except Fault (List (Int × Int))
  | _, [], _ => .ok []
  | i, x :: xs, ss => do
    match ss with
    | [] => throw .position
    | s :: ss =>
      let x ← x.toInt
      let s ← s.toInt
      if s = 0 then throw { cause := .zeroDivisor }
      let k ← (← kernel.index i).toInt
      let rest ← samePairsOf kernel (i + 1) xs ss
      return halve (sameTotal x k s) :: rest

def spatialPart {α β : Type} (channelsFirst : Bool) (shape : List α) (strides : List β) :
    List α × List β :=
  if channelsFirst then
    let extents := Value.sliceFrom shape 2
    let extra := (strides.length : Int) - extents.length
    (extents, if extra > 0 then Value.sliceFrom strides extra else strides)
  else
    let extents := Value.inner shape
    let extra := (extents.length : Int) - strides.length + 1
    (extents, if extra < 0 then Value.slice strides (some 1) (some extra) else strides)

def framed (channelsFirst : Bool) (ps : List (Int × Int)) : List Int :=
  if channelsFirst then flat ([(0, 0), (0, 0)] ++ ps) else flat ([(0, 0)] ++ ps ++ [(0, 0)])

/-- The pads that keep every output position. The shape has the channels last, or second if
`channelsFirst`; strides may be given for all axes or for the spatial ones. -/
def same (channelsFirst : Bool) (shape kernel strides : List Int) : Except Fault (List Int) := do
  let (extents, strides) := spatialPart channelsFirst shape strides
  return framed channelsFirst (← samePairs extents kernel strides)

def sameOf (channelsFirst : Bool) (shape : List Value) (kernel : Value) (strides : List Value) :
    Except Fault (List Int) :=
  match shape.mapM Value.toInt, kernel.toInts, strides.mapM Value.toInt with
  | .ok xs, .ok ks, .ok ss => same channelsFirst xs ks ss
  | _, _, _ => do
    let (extents, strides) := spatialPart channelsFirst shape strides
    return framed channelsFirst (← samePairsOf kernel 0 extents strides)

/-- The pad in all that a window needs so that no position is lost, from what its last step leaves
over. -/
def leftOver (extent kernel stride : Int) : Except Fault Int :=
  if stride = 0 then .error { cause := .zeroDivisor }
  else
    let rest := extent.fmod stride
    .ok (max 0 (kernel - (if rest = 0 then stride else rest)))

/-- The same, with whether it is odd. -/
def windowPad (extent kernel stride : Int) : Except Fault (Bool × Int) := do
  let pad ← leftOver extent kernel stride
  return (pad.fmod 2 != 0, pad)

def isCeiling : Bool :=
  let n := pads.length / 2
  (List.range (pads.length - 1)).all fun i =>
    i < n + 1 || pads.getD i 0 != pads.getD (i - n) 0

end Padding

/-! ## Axis orders

A network in interchange form keeps the channels on the last axis; other formats keep them on the
second. -/

namespace Axes

def channelsLast {α : Type} : List α → Except Fault (List α)
  | n :: c :: ds => .ok (n :: ds ++ [c])
  | _ => .error .position

def lastAxis (a : Int) : Int := if a = 0 then 0 else if a = 1 then -1 else a - 1

def firstAxis (rank : Nat) (a : Int) : Int :=
  if a = 0 then 0 else if a = (rank : Int) - 1 then 1 else a + 1

def kernelChannelsLast (rank : Nat) : List Int :=
  ((List.range rank).drop 2).map Int.ofNat ++ [1, 0]

def kernelChannelsFirst (dim : Int) : List Int :=
  [dim + 1, dim] ++ (List.range dim.toNat).map Int.ofNat

def imageIn (dim : Int) : List Int := dim :: (List.range dim.toNat).map Int.ofNat

def imageOut (dim : Int) : List Int :=
  (List.range dim.toNat).map (fun i : Nat => Int.ofNat i + 1) ++ [0]

end Axes

end NetBridge
