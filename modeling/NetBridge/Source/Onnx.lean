import NetBridge.Graph.Basic
import NetBridge.Value.Basic

/-!
# The graph of an ONNX model

Operations are connected by the tensors that they read and write, as soon as both ends of a tensor
have been seen; of several readers or writers of a tensor only the last one so far is remembered.
-/

namespace NetBridge.Source.Onnx

structure Operation where
  name : String := ""
  type : String := ""
  inputs : List String := []
  outputs : List String := []

structure Model where
  operations : List Operation := []
  stored : List String := []
  inputs : List String := []
  outputs : List String := []

structure Role where
  type : String
  weights : List String := []
  inputs : List String := []
  outputs : List String := []

structure Wiring where
  graph : Graph Role := {}
  writers : Table String := ∅
  readers : Table String := ∅
  log : List String := []

namespace Wiring

def connect (w : Wiring) (source target : String) : Wiring :=
  let (g, log) := w.graph.connect source target
  { w with graph := g, log := w.log ++ log }

def read (w : Wiring) (name tensor : String) : Wiring :=
  let w := { w with readers := w.readers.insert tensor name }
  match w.writers.find? tensor with
  | some source => w.connect source name
  | none => w

def write (w : Wiring) (name tensor : String) : Wiring :=
  let w := { w with writers := w.writers.insert tensor name }
  match w.readers.find? tensor with
  | some target => w.connect name target
  | none => w

end Wiring

def Operation.label (o : Operation) (i : Nat) : String :=
  if o.name.isEmpty then o.type ++ "_" ++ toString i else o.name

def Model.place (m : Model) (w : Wiring) (i : Nat) (o : Operation) : Wiring :=
  let name := o.label i
  let role : Role := {
    type := o.type
    weights := o.inputs.filter m.stored.contains
    inputs := o.inputs.filter m.inputs.contains
    outputs := o.outputs.filter m.outputs.contains }
  let w := { w with graph := w.graph.add name role }
  let reads := o.inputs.filter fun t => !m.inputs.contains t
  let writes := o.outputs.filter fun t => !m.outputs.contains t
  let w := reads.foldl (fun w t => w.read name t) w
  writes.foldl (fun w t => w.write name t) w

def Model.placeAll (m : Model) : Wiring → Nat → List Operation → Wiring
  | w, _, [] => w
  | w, i, o :: os => m.placeAll (m.place w i o) (i + 1) os

def graphOf (m : Model) : Graph Role × List String :=
  let w := m.placeAll {} 0 m.operations
  (w.graph.finish, w.log)

/-! ## Shapes -/

def windowed (size front back extent stride : Int) : Except Fault Int :=
  if stride = 0 then .error { cause := .zeroDivisor }
  else .ok (Int.fdiv (size + front + back - extent) stride + 1)

def dilatedExtent (kernel dilation : Int) : Int := Int.fdiv (kernel - 1) 2 * dilation * 2 + 1

def entry (xs : List Int) (i : Nat) : Except Fault Int := orFault .position xs[i]?

def slide (pads strides : List Int) (extent : Nat → Except Fault Int) :
    Nat → List Int → Except Fault (List Int)
  | _, [] => .ok []
  | i, size :: sizes => do
    let front ← entry pads (i * 2)
    let back ← entry pads (i * 2 + 1)
    let stride ← entry strides i
    let out ← windowed size front back (← extent i) stride
    return out :: (← slide pads strides extent (i + 1) sizes)

def settings (given : Option (List Int)) (count : Nat) (preset : Int) : List Int :=
  given.getD (List.replicate count preset)

def pool (shape : List Int) (kernel pads strides : Option (List Int)) : Except Fault (List Int) := do
  let kernel := kernel.getD [2, 2]
  let dim := kernel.length
  let cut := if dim = 0 then 0 else shape.length - dim
  let sizes ← slide (settings pads (dim * 2) 0) (settings strides dim 1) (entry kernel) 0 (shape.drop cut)
  return shape.take cut ++ sizes

def conv (shape weight : List Int) (kernel pads strides dilations : Option (List Int)) :
    Except Fault (List Int) := do
  let dim := shape.length - 2
  let kernel := kernel.getD (weight.drop 2)
  let dilations := settings dilations dim 1
  let images ← entry shape 0
  let filters ← entry weight 0
  let extent (i : Nat) : Except Fault Int := do
    let dilation ← entry dilations i
    return dilatedExtent (← entry kernel i) dilation
  let sizes ← slide (settings pads (dim * 2) 0) (settings strides dim 1) extent 0 (shape.drop 2)
  return images :: filters :: sizes

def concat (shapes : List (List Int)) (axis : Int) : Except Fault (List Int) := do
  let sizes ← shapes.mapM fun s => Value.nth s axis
  let first ← orFault .position shapes.head?
  let place ← orFault .position (Value.place first.length axis)
  return first.set place (sizes.foldr (· + ·) 0)

def globalPool (shape : List Int) : List Int := shape.take 2 ++ [1, 1]

def dense (shape weight : List Int) : Except Fault (List Int) := do
  return [← entry shape 0, ← entry weight 1]

def flatten (shape : List Int) (axis : Int) : List Int :=
  let product (xs : List Int) : Int := xs.foldl (· * ·) 1
  let first := product (shape.take axis.toNat)
  let second := product (shape.drop axis.toNat)
  if axis > 0 then [first, second] else [second]

/-! ## Sample shapes

The sizes of the tensors in a small network for images of digits, and a tour of the shape rules. -/

abbrev Tour := Run (List String)

def note (line : String) : Tour Unit := modify fun ls => ls ++ [line]

def noteShape (words : String) (shape : List Int) : Tour Unit := note (words ++ " " ++ intList shape)

def sampleNetwork (image : List Int) : Tour (List Int) := do
  note "\nLeNet output shape test:"
  noteShape "input_image_shape is : " image
  let halving : Option (List Int) := some [2, 2]
  let s ← conv image [6, -1, 5, 5] (some [5, 5]) none none none
  noteShape "1st Lay output shape is : " s
  let s ← pool s none none halving
  noteShape "2nd Lay output shape is : " s
  let s ← conv s [16, -1, 5, 5] (some [5, 5]) none none none
  noteShape "3rd Lay output shape is : " s
  let s ← pool s none none halving
  noteShape "4th Lay output shape is : " s
  let s ← conv s [120, -1, 5, 5] none none none none
  noteShape "5th Lay output shape is : " s
  let s ← dense (flatten s 1) [-1, 84]
  noteShape "6th Lay output shape is : " s
  let s ← dense s [-1, 10]
  noteShape "7th Lay output shape is : " s
  return s

def tourConv (x w : List Int) (pads : Option (List Int)) (words : String) : Tour Unit := do
  note ("input shapeX is : " ++ intList x ++ " input shapeW is : " ++ intList w)
  note ("output shape is : " ++ intList (← conv x w none pads none none) ++ " " ++ words)

def tour : Tour Unit := do
  let shape := [1, 9, 9, 9]
  noteShape "input shape is  : " shape
  noteShape "output shape is : " (← pool shape none (some [1, 1, 1, 1]) (some [2, 2]))
  note (intList (← pool shape (some [2, 2]) (some [1, 1, 1, 1]) (some [2, 2])))
  noteShape "input shape is  : " shape
  noteShape "output shape is : " (← pool shape (some [3, 3]) (some [0, 0, 0, 0]) (some [3, 3]))
  let shape := [3, 9, 9]
  noteShape "input shape is  : " shape
  noteShape "output shape is : " (← pool shape none none none)
  let x := [1, 1, 5, 5]
  tourConv x [1, 1, 3, 3] none "without pads"
  tourConv x [2, 1, 3, 3] (some [1, 1, 1, 1]) "pads is [1, 1, 1, 1]"
  noteShape "output shape is :" (← concat [[1, 1, 3, 3], [1, 3, 3, 3], [1, 5, 3, 3]] 1)
  noteShape "output shape is :" (globalPool [5, 5, 5, 5])
  for images in [-1, 5] do
    noteShape "LeNet-5 output shape is : " (← sampleNetwork [images, 1, 32, 32])

end NetBridge.Source.Onnx
