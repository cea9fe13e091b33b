import NetBridge.Value.Basic

/-!
# The scaling layer

A layer that multiplies its input by one factor and adds one offset for every place of an axis. The
factor and the offset are weights, each of which may be left out.
-/

namespace NetBridge

structure Scaling where
  axis : Value := .int (-1)
  center : Value := .bool true
  scale : Value := .bool true
  offsetStart : Value := .text "zeros"
  factorStart : Value := .text "ones"
  rest : List (String × Value) := []

namespace Scaling

def ofSettings (fs : List (String × Value)) : Scaling :=
  let known := ["axis", "center", "scale", "beta_initializer", "gamma_initializer"]
  let v : Value := .record fs
  let own (name : String) (default : Value) : Value := (v.field? name).getD default
  { axis := own "axis" (.int (-1)), center := own "center" (.bool true)
    scale := own "scale" (.bool true), offsetStart := own "beta_initializer" (.text "zeros")
    factorStart := own "gamma_initializer" (.text "ones")
    rest := fs.filter fun f => !known.contains f.1 }

def settings (s : Scaling) : List (String × Value) :=
  s.rest ++ [("axis", s.axis), ("center", s.center), ("scale", s.scale)]

structure Weight where
  name : String
  length : Nat
  start : Value
  value : Tensor

def startValue (start : Value) (length : Nat) : Tensor :=
  match start with
  | .text "ones" => ⟨.int64, Grid.filled [length] (.int 1)⟩
  | _ => ⟨.int64, Grid.filled [length] (.int 0)⟩

structure Built where
  layer : Scaling
  shape : List Value
  size : Value
  factor : Option Weight
  offset : Option Weight

def build (s : Scaling) (shape : List Value) : Except Fault Built := do
  let axis ← s.axis.toInt
  let size ← Value.nth shape axis
  if size.isNone then
    throw (.report .value ("Axis " ++ s.axis.display ++ " of input tensor should have a defined " ++
      "dimension but the layer received an input with shape " ++ (Value.tuple shape).display ++ "."))
  let length := (← size.toInt).toNat
  let weight (name : String) (start : Value) : Weight :=
    { name := name, length := length, start := start, value := startValue start length }
  return { layer := s, shape := shape, size := size
           factor := if s.scale.isSet then some (weight "gamma" s.factorStart) else none
           offset := if s.center.isSet then some (weight "beta" s.offsetStart) else none }

def combine (f : Int → Int → Int) (g : Float → Float → Float) : Scalar → Scalar → Scalar
  | .int a, .int b => .int (f a b)
  | a, b => .real (g a.toFloat b.toFloat)

def combineArrays (f : Int → Int → Int) (g : Float → Float → Float) (a b : Tensor) :
    Except Fault Tensor := do
  let e := if a.elem.isReal || b.elem.isReal then .float64 else a.elem
  let cells ← a.cells.zipWith (combine f g) b.cells
  return ⟨e, cells.map (Scalar.cast e)⟩

def apply (s : Scaling) (factor offset : Option Tensor) (input : Tensor) : Except Fault Tensor := do
  let axis ← s.axis.toInt
  let place ← orFault .position (Value.place input.rank axis)
  let shape := (List.replicate input.rank 1).set place (Int.ofNat (input.shape.getD place 0))
  let factor ← (← orFault .value factor).reshape shape
  let scaled ← combineArrays (· * ·) (· * ·) factor input
  let offset ← (← orFault .value offset).reshape shape
  combineArrays (· + ·) (· + ·) scaled offset

end Scaling

end NetBridge
