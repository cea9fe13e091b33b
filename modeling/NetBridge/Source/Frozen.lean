import NetBridge.Source.TensorFlow

/-!
# Frozen TensorFlow graphs

The variables of a frozen graph are constants, written out in its nodes. The shapes of its outputs are
told by the framework and noted in the nodes before the graph is built.
-/

namespace NetBridge.Source.Frozen

open Source.TensorFlow

structure Told where
  inputs : List String
  outputShapes : Table (List Int) := ∅
  inputShapes : Table (List Int) := ∅

def imageShape (a b c : Value) : Except Fault (List Int) := do
  return [-1, ← a.readWhole, ← b.readWhole, ← c.readWhole]

def Told.withSizes (t : Told) (sizes : List Value) : Except Fault Told := do
  let last ← Value.nth sizes 2
  let a := sizes.getD 0 .none
  let b := sizes.getD 1 .none
  let first := t.inputs.headD ""
  let put (t : Told) (name : String) (shape : List Int) : Told :=
    { t with outputShapes := t.outputShapes.insert name shape }
  match last with
  | .int _ => return put t first (← imageShape a b last)
  | .text s =>
    match Text.split ',' s with
    | [c, d] =>
      let n ← (Value.text d).readWhole
      let second ← Value.nth t.inputs 1
      return put (put t second [n]) first (← imageShape a b (.text c))
    | _ => return put t first (← imageShape a b last)
  | _ => throw .property

def addShapeTo (n : Layer) (name : String) (shape : List Int) : Layer :=
  { n with attrs := n.attrs.insert name ((n.attr name).extendShapes [shape]) }

def notedShape? (n : Layer) : Option (String × String) :=
  match n.op with
  | "MirrorPad" => some ("paddings", n.name ++ "/paddings:0")
  | "QuantizeV2" => some ("shape", n.name ++ ":0")
  | "RequantizationRange" =>
    some ("shape", Text.before "eightbit" n.name ++ "eightbit_quantized_conv:0")
  | "Requantize" => some ("shape", Text.replace n.name "requantize" "quantized_conv" ++ ":0")
  | _ => none

def note (t : Told) (n : Layer) : Except Fault Layer := do
  let n := match t.outputShapes.find? (n.name ++ ":0") with
    | some s => if n.op = "Placeholder" then n else addShapeTo n "_output_shapes" s
    | none => n
  let n ← match notedShape? n with
    | some (attr, tensor) => do pure (addShapeTo n attr (← t.inputShapes.get tensor .key))
    | none => pure n
  if t.inputs.contains n.name then
    match t.outputShapes.find? n.name with
    | some s => return addShapeTo (addShapeTo n "shape" s) "_output_shapes" s
    | none => return n
  else return n

def graphOf (t : Told) (nodes : List Layer) : Except Fault (Graph Layer × List String) := do
  return TensorFlow.graphOf (← nodes.mapM (note t))

abbrev Convert (β : Type) := Build Layer Unit β

def silentOps : List String :=
  ["L2Loss", "VariableV2", "Const", "Assign", "RandomUniform", "FIFOQueueV2", "Assert", "Unpack",
   "NextIteration", "TensorArrayV3", "Range", "TensorArrayScatterV3", "TensorArrayReadV3",
   "TensorArrayWriteV3", "Dequantize", "ExpandDims", "Identity", "Pack"]

def quantisedOps : List String :=
  ["Dequantize", "QuantizeV2", "QuantizedConv2D", "QuantizedReshape", "RequantizationRange"]

def constantFrom : Nat → Option (Vertex Layer) → Convert (Option (Vertex Layer))
  | 0, _ => return none
  | _, none => return none
  | fuel + 1, some n => do
    if n.item.op = "Const" then return some n
    else if silentOps.contains n.item.op then constantFrom fuel (← parent? n.name [0])
    else throw .condition

def constantBehind (n : Option (Vertex Layer)) : Convert Tensor := do
  let fuel := (← get).graph.vertices.size + 1
  constant (← orFault .property (← constantFrom fuel n))

def constantAt (name : String) (path : List Int) (mark : Bool := false) : Convert Tensor := do
  constant (← parent name path mark)

variable (v : Vertex Layer) (op : String)

def store (name : String) (t : Tensor) : Convert Unit :=
  setWeight v.name name (.array t)

/-! ## Parts of layers -/

def elementTypeOf : Except Fault Int :=
  if quantisedOps.contains v.item.op || v.item.op = "Enter" then .ok 1
  else orFault .condition (elementType? (v.item.attr "T").typeValue)

def identify (k : Nat) (op : String) : Convert Unit := do
  setName k v.name
  setOp k op
  let format ← formatOf v
  if has v "T" then setType k "dtype" (← elementTypeOf v)
  if has v "_output_shapes" then mergeAttr k "_output_shapes" (v.item.attr "_output_shapes")
  if has v "paddings" then mergeAttr k "paddings" (v.item.attr "paddings")
  assign k format

def carry (stop : Option Nat := none) (start : Nat := 0) :
    Convert Nat := do
  let k ← newLayer
  identify v k op
  readSources v k start stop
  return k

def copyShape (k : Nat) : Convert Unit := do
  Run.require (has v "shape")
  let a := v.item.attr "shape"
  mergeShape k "shape" (a.items.shapes.headD a.dims)

def sourceSizes (i : Int) : Convert Value := do
  return .ints (← outputSizes (← parent v.name [i]))

def carrySized (v : Vertex Layer) : Convert Unit := do
  let k ← carry v op
  assign k [("shape", ← sourceSizes v 0)]

def carryOwnSized (stop : Option Nat) (v : Vertex Layer) : Convert Unit := do
  let k ← carry v op stop
  assign k [("shape", .ints (← outputSizes v))]

def carryPair (v : Vertex Layer) : Convert Unit := do
  let k ← carry v op (some 1)
  let a ← sourceSizes v 0
  let b ← sourceSizes v 1
  assign k [("shape_0", a), ("shape_1", b)]

/-! ## Layers -/

def placeholder : Convert Unit := do
  let k ← carry v "DataInput"
  copyShape v k
  changeAttr k "shape" fun a => (leadWith (-1) a.dims).map .shape
  changeAttr k "_output_shapes" fun a => do
    match a.items.shapes with
    | [] => throw .position
    | s :: rest =>
      let s ← leadWith (-1) s
      let l := a.items
      return .list { l with shapes := s :: rest }

def biasOf (sum : Vertex Layer) : Convert Tensor := do
  let node ← sourceAt sum 1
  constant (← if node.item.op = "Identity" then sourceAt node 0 else pure node)

def kernelOf (node : Vertex Layer) : Convert Tensor := do
  constant (← if node.item.op = "Const" then pure node else parent node.name [0])

def setKernel (k : Nat) : Convert Unit := do
  let strides ← TensorFlow.get v "strides"
  let padding ← TensorFlow.get v "padding"
  let shape ← sourceSizes v 0
  let node ← parent v.name [1]
  let w ← kernelOf node
  let kernel := (← outputSizes node).map Value.int
  store v "weights" w
  setPads v k (.list (Value.slice kernel none (some (-2))))
  assign k [("strides", strides), ("padding", padding), ("shape", shape),
    ("kernel_shape", .list kernel)]

def convolution : Convert Unit := do
  let k ← carry v "Conv" (some 1)
  setKernel v k
  onNext v (fun op => op == "Add" || op == "BiasAdd") fun t sum => do
    let bias ← biasOf sum
    takeSum k t
    store v "bias" bias

def depthwise : Convert Unit := do
  let k ← carry v "DepthwiseConv" (some 1)
  let strides ← TensorFlow.get v "strides"
  let kernel := (← outputSizes (← parent v.name [1])).map Value.int
  setPads v k (.list (Value.slice kernel none (some (-2))))
  store v "weights" (← constantBehind (← parent? v.name [1]))
  assign k [("strides", strides), ("kernel_shape", .list kernel)]

def globalNorm : Convert Unit := do
  let k ← carry v "BatchNorm" (some 1)
  setFloat k "epsilon" (← TensorFlow.get v "variance_epsilon")
  store v "var" (← constantAt v.name [2])
  store v "scale" (← constantAt v.name [4])
  store v "bias" (← constantAt v.name [3])
  store v "mean" (← constantAt v.name [1])

def mirrorPad : Convert Unit := do
  let k ← carry v "MirrorPad"
  let t ← (← constantAt v.name [1]).reshape [-1]
  assign k [("mode", ← TensorFlow.get v "mode"), ("pads", .ofTensor t)]

def productNorm (k : Nat) : Convert Unit := do
  store v "A" (← constantAt v.name [0, 1])
  store v "b" (← constantAt v.name [1])
  addInput k (← parent v.name [0]).outputName

/-- The last node of a chain and the product with the mean. -/
def chainEnds (k : Nat) (root : Vertex Layer) :
    Convert (Option (Vertex Layer) × Option (Vertex Layer)) := do
  if root.targets.length = 2 then
    setFlag k "scale" (.bool false)
    let last ← child? v.name [0, 0, 0] true
    return (last, ← child? v.name [0, 1] true)
  else
    setFlag k "scale" (.bool true)
    let scaled ← child v.name [0, 0, 0] true
    store v "scale" (← constantBehind (← parent? scaled.name [1, 1] true))
    let last ← child? v.name [0, 0, 0, 0] true
    return (last, ← child? v.name [0, 0, 1] true)

def sumNorm (k : Nat) (variance : Vertex Layer) : Convert Unit := do
  let epsilon ← parent v.name [1]
  let x ← orFault .position (← claimLiteral epsilon.name "value").floats.head?
  setFloat k "epsilon" (.float x)
  Run.require (variance.item.op == "Identity")
  store v "var" (← constantAt variance.name [0])
  let root ← child v.name [0] true
  let ends ← chainEnds v k root
  let last ← orFault .property ends.1
  let beta ← constantAt last.name [1, 0, 0] true
  setFlag k "bias" (.bool true)
  store v "bias" beta
  let product ← orFault .property ends.2
  store v "mean" (← constantAt product.name [0, 0])
  closeChain v k last

def batchChain : Convert Unit := do
  let k ← newLayer
  identify v k "BatchNorm"
  let first ← parent v.name [0]
  if first.item.op = "Mul" then productNorm v k else sumNorm v k first

def instanceChain : Convert Unit := do
  let k ← newLayer
  identify v k "InstanceNorm"
  let epsilon ← parent v.name [1]
  let x ← orFault .position (← literal epsilon "value").floats.head?
  setFloat k "epsilon" (.float x)
  let last ← child v.name [0, 0, 0, 0] true
  store v "bias" (← constantAt last.name [1, 0, 0, 0, 0, 1] true)
  setFlag k "scale" (.bool true)
  let scaled ← child v.name [0, 0, 0] true
  store v "scale" (← constantAt scaled.name [1, 1, 0, 0, 0, 1] true)
  closeChain v k last

def add : Convert Unit := do
  match (scopes v.name).reverse with
  | _ :: "batchnorm" :: outer :: _ =>
    if outer = "BatchNorm" then batchChain v
    else if outer = "InstanceNorm" then instanceChain v
  | _ =>
    let _ ← carry v "Add"

def sum : Convert Unit := do
  let k ← carry v "Sum" (some 1)
  let shape ← sourceSizes v 0
  let node ← parent v.name [1]
  let t ← literal node "value"
  let axes ←
    if t.content.isEmpty then do pure (Value.int (← firstInt node))
    else do pure (Value.ofTensor (← arrayOf t))
  assign k [("cal_shape", shape), ("sum_indices", axes)]

def product : Convert Unit := do
  let k ← carry v "Prod"
  let shape ← sourceSizes v 0
  assign k [("shape", shape), ("const", .int (← firstInt (← parent v.name [1])))]

def gather : Convert Unit := do
  let k ← carry v "Gather"
  assign k [("gather_indices", .ofTensor (← constantAt v.name [1]))]

def stridedSlice : Convert Unit := do
  let k ← carry v "StridedSlice" (some 1)
  let bounds ← [1, 2, 3].mapM fun i => parent? v.name [i]
  let found ← (bounds.zip ["const0", "const1", "const2"]).mapM fun (node, name) => do
    let t ← literal (← orFault .property node) "value"
    return (t.ints.head?.map fun n => (name, Value.int n))
  assign k (found.filterMap id)

def resizeNearest : Convert Unit := do
  let k ← carry v "ResizeNearestNeighbor"
  let a ← sourceSizes v 0
  let b ← sourceSizes v 1
  assign k [("shape", a), ("size", b)]

def pooling (word : String) (v : Vertex Layer) : Convert Unit := do
  let k ← carry v "Pool"
  setPool v k word

def localNorm : Convert Unit := do
  let k ← carry v "LRN"
  setFloat k "alpha" (← (← TensorFlow.get v "alpha" (.text "0.0001")).readFraction)
  setFloat k "beta" (← (← TensorFlow.get v "beta" (.text "0.75")).readFraction)
  setInt k "size" (← TensorFlow.get v "depth_radius")
  setFloat k "bias" (← (← TensorFlow.get v "bias").readFraction)

def concatLed : Convert Unit := do
  let k ← carry v "Concat" none 1
  setInt k "axis" (.int (← firstInt (← parent v.name [0])))

def concat : Convert Unit := do
  let n := v.sources.length
  let k ← carry v "Concat" (some (n - 1))
  setInt k "axis" (.int (← firstInt (← parent v.name [(n : Int) - 1])))

def matrixProduct : Convert Unit := do
  let k ← carry v "MatMul" (some 1)
  store v "weights" (← constantBehind (← parent? v.name [1]))
  let shapes := (← claimAttr v.name "_output_shapes").items.shapes
  let last : List Int ← orFault .position shapes.getLast?
  let units : Int ← orFault .position last.getLast?
  setInt k "units" (.int units)
  onNext v (· == "BiasAdd") fun t sum => do
    takeOutput v.name t
    identify v k "FullyConnected"
    store v "bias" (← constantBehind (some (← sourceAt sum 1)))
    setFlag k "use_bias" (.bool true)

def softmax : Convert Unit := do
  let k ← carry v "Softmax"
  let shape ← outputSizes v
  setInt k "dim" (.int 1)
  assign k [("shape", .ints shape)]

def quantisedConvolution : Convert Unit := do
  let k ← carry v "QConv"
  let strides ← TensorFlow.get v "strides"
  let padding ← TensorFlow.get v "padding"
  let node ← parent v.name [1]
  let w := (← constant node).cast .uint8
  let kernel ← outputSizes node
  let firstFloat (i : Int) : Convert Float := do
    orFault .position (← literal (← parent v.name [i]) "value").floats.head?
  let low ← firstFloat 4
  let high ← firstFloat 5
  Run.require ((← TensorFlow.get v "Tfilter").same (.int 12))
  let step := (high - low) / 255.0
  store v "kernel_weights" ⟨.float64, w.cells.map fun s => .real (step * s.toFloat + low)⟩
  let values := [("strides", strides), ("padding", padding), ("kernel_shape", .ints kernel)]
  -- assigned twice: a list grows by what is assigned to it
  assign k values
  assign k values

def requantise : Convert Unit := do
  rename (← child v.name [0]).name v.name

def carryShaped (v : Vertex Layer) : Convert Unit := do
  let k ← carry v op
  copyShape v k

def batchNorm : Convert Unit := do
  let k ← carry v "BatchNorm" (some 1)
  setFloat k "epsilon" (← TensorFlow.get v "epsilon" (.int 0))
  store v "scale" (← constantBehind (← parent? v.name [1] true))
  store v "bias" (← constantBehind (← parent? v.name [2] true))
  setFlag k "bias" (.bool true)
  store v "mean" (← constantBehind (← parent? v.name [3] true))
  store v "variance" (← constantBehind (← parent? v.name [4] true))

def whole (v : Vertex Layer) : Convert Unit := do
  let _ ← carry v op

def headOnly (v : Vertex Layer) : Convert Unit := do
  let _ ← carry v op (some 1)

def unknown : Convert Unit := do
  if !silentOps.contains v.item.op then
    say ("Tensorflow has not supported operator [" ++ v.item.op ++ "] with name [" ++ v.name ++ "].")
    throw .condition

def rule? : String → Option (Vertex Layer → Convert Unit)
  | "NoOp" | "CheckNumerics" => some fun _ => pure ()
  | "Relu6" => some (whole "Relu6")
  | "DepthwiseConv2dNative" => some depthwise
  | "BatchNormWithGlobalNormalization" => some globalNorm
  | "Placeholder" => some placeholder
  | "Reshape" => some (carryOwnSized "Reshape" (some 1))
  | "MirrorPad" => some mirrorPad
  | "Min" => some (carryPair "Min")
  | "Max" => some (carryPair "Max")
  | "Mul" => some (headOnly "Mul")
  | "Add" => some add
  | "Fill" => some (whole "Fill")
  | "Sub" => some (headOnly "Sub")
  | "Sum" => some sum
  | "Rsqrt" => some (carrySized "Rsqrt")
  | "Square" => some (carrySized "Square")
  | "Sigmoid" => some (carrySized "Sigmoid")
  | "Reciprocal" => some (headOnly "Reciprocal")
  | "Minimum" => some (whole "Minimum")
  | "Maximum" => some (whole "Maximum")
  | "RealDiv" => some (whole "RealDiv")
  | "Enter" => some (whole "Enter")
  | "Switch" | "Identity" => some passOn
  | "Exp" => some (whole "Exp")
  | "ResizeBilinear" => some (headOnly "ResizeBilinear")
  | "Cast" => some (carrySized "Cast")
  | "Prod" => some product
  | "Shape" => some (carrySized "Shape")
  | "Squeeze" => some (whole "Squeeze")
  | "Gather" => some gather
  | "StridedSlice" => some stridedSlice
  | "ResizeNearestNeighbor" => some resizeNearest
  | "Conv2D" => some convolution
  | "Relu" => some (carryOwnSized "Relu" none)
  | "MaxPool" => some (pooling "MAX")
  | "AvgPool" => some (pooling "AVG")
  | "LRN" => some localNorm
  | "Concat" => some concatLed
  | "ConcatV2" => some concat
  | "MatMul" => some matrixProduct
  | "Softmax" => some softmax
  | "QuantizeV2" => some (carryShaped "QuantizeV2")
  | "QuantizedRelu" => some (carryOwnSized "QuantizedRelu" none)
  | "QuantizedReshape" => some (carryOwnSized "QuantizedReshape" (some 1))
  | "QuantizedConv2D" => some quantisedConvolution
  | "Requantize" => some requantise
  | "RequantizationRange" => some (carryShaped "RequantizationRange")
  | "GreaterEqual" => some (headOnly "GreaterEqual")
  | "Equal" => some (whole "Equal")
  | "All" => some (whole "All")
  | "LogicalAnd" => some (whole "Mul")
  | "Pad" => some (headOnly "Pad")
  | "FusedBatchNorm" => some batchNorm
  | "SpaceToBatchND" => some (headOnly "SpaceToBatchND")
  | "BatchToSpaceND" => some (headOnly "BatchToSpaceND")
  | "ArgMax" => some (headOnly "ArgMax")
  | "Slice" => some (whole "Slice")
  | _ => none

def convertNode : Convert Unit :=
  match rule? v.item.op with
  | some rule => rule v
  | none => unknown v

def start (t : Told) (nodes : List Layer) (sizes : List Value) : Except Fault (Builder Layer Unit) := do
  let (g, log) ← graphOf (← t.withSizes sizes) nodes
  return { graph := g, log := log, loaded := true, own := () }

def convert : Convert Unit := convertKept (fun _ => false) convertNode

end NetBridge.Source.Frozen
