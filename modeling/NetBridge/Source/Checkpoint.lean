import NetBridge.Source.TensorFlow

/-!
# TensorFlow graphs with a checkpoint

The variables of such a graph are nodes of their own; their arrays, if any, stand in a checkpoint
under their names. Chains of nodes that make up one layer are taken together.
-/

namespace NetBridge.Source.Checkpoint

open Source.TensorFlow

abbrev State := Table Tensor

abbrev Convert (β : Type) := Build Layer State β

def trainingStarts : List String :=
  ["^", "train_op", "save", "gradients", "init", "global_step", "distort_image", "Adagrad"]

def silentOps : List String :=
  ["L2Loss", "VariableV2", "Const", "Assign", "RandomUniform", "FIFOQueueV2"]

def elementType? (n : Int) : Option Int := if n = 10 then some 14 else TensorFlow.elementType? n

def stored (variableNode : String) : Convert Value := do
  return .array (← (← own).get variableNode Fault.key)

variable (v : Vertex Layer)

def storeWeight (name variableNode : String) : Convert Unit := do
  if ← hasWeights then setWeight v.name name (← stored variableNode)

def storeKnown (name : String) (node : Option (Vertex Layer)) : Convert Unit := do
  if ← hasWeights then
    let n ← orFault .property node
    if (← own).contains n.name then setWeight v.name name (← stored n.name)

def identify (k : Nat) (op : String) : Convert Unit := do
  setName k v.name
  setOp k op
  let format ← formatOf v
  if has v "dtype" then
    setType k "dtype" (← orFault .condition (elementType? (v.item.attr "dtype").typeValue))
  if has v "_output_shapes" then mergeAttr k "_output_shapes" (v.item.attr "_output_shapes")
  assign k format

def carry (op : String) (stop : Option Nat := none) : Convert Nat := do
  let k ← newLayer
  identify v k op
  readSources v k 0 stop
  return k

/-! ## Layers -/

def placeholder : Convert Unit := do
  let k ← carry v "DataInput"
  Run.require (has v "shape")
  mergeShape k "shape" (v.item.dims "shape")

def storeBias (k : Nat) (sum : Vertex Layer) : Convert Unit := do
  let read ← sourceAt sum 1
  let node ← sourceAt read 0
  let units ← orFault .position (← claimAttr node.name "shape").dims.head?
  let filters ← orFault .position (← attr k "kernel_shape").items.ints.getLast?
  Run.require (units == filters)
  if ← hasWeights then
    Run.require ((← own).contains node.name)
    setWeight v.name "bias" (← stored node.name)

def setKernel (k : Nat) : Convert Unit := do
  let strides ← get v "strides"
  let read ← inputAt v 1
  let node ← inputAt read 0
  let shape := (← claimAttr node.name "shape").dims.map Value.int
  setPads v k (.list (Value.slice shape none (some (-2))))
  storeWeight v "weights" node.name
  assign k [("strides", strides), ("kernel_shape", .list shape)]

def convolution : Convert Unit := do
  let k ← carry v "Conv" (some 1)
  setKernel v k
  onNext v (fun op => op == "Add" || op == "BiasAdd") fun t sum => do
    storeBias v k sum
    takeSum k t

def depthwise : Convert Unit := do
  let k ← carry v "DepthwiseConv" (some 1)
  let strides ← get v "strides"
  let shape := (← outputSizes (← parent v.name [1])).map Value.int
  setPads v k (.list (Value.slice shape none (some (-2))))
  if ← hasWeights then
    setWeight v.name "weights" (← stored (← parent v.name [1, 0]).name)
  assign k [("strides", strides), ("kernel_shape", .list shape)]

def asVariable (node : Option (Vertex Layer)) : Option (Vertex Layer) :=
  node.filter fun n => Text.startsWith n.item.op "Variable"

/-- A part of a normalisation that is there or not. -/
def storePart (k : Nat) (name : String) (node : Option (Vertex Layer)) : Convert Bool := do
  match asVariable node with
  | none =>
    setFlag k name (.bool false)
    return false
  | some n =>
    setFlag k name (.bool true)
    storeWeight v name n.name
    return true

def normChain : Convert Unit := do
  let k ← newLayer
  identify v k "BatchNorm"
  let epsilon ← parent v.name [1]
  let x ← orFault .position (← claimLiteral epsilon.name "value").floats.head?
  setFloat k "epsilon" (.float x)
  storeKnown v "var" (← parent? v.name [0, 0])
  let scaled ← child v.name [0, 0] true
  let isScaled ← storePart v k "scale" (← parent? scaled.name [1, 0] true)
  let last ← child v.name (if isScaled then [0, 0, 0, 0] else [0, 0, 0]) true
  storeKnown v "mean" (← parent? last.name [1, 1, 0, 0] true)
  let _ ← storePart v k "bias" (← parent? last.name [1, 0, 0] true)
  closeChain v k last

def add : Convert Unit := do
  let ss := scopes v.name
  let scope := (Value.nth ss (-2)).toOption
  if ss.length ≥ 3 && scope = some "dropout" then pure ()
  else if ss.length ≥ 3 && scope = some "batchnorm" then normChain v
  else
    let _ ← carry v "Add"

def reshape : Convert Unit := do
  let k ← carry v "Reshape" (some 1)
  assign k [("shape", .ints (← outputSizes v))]

def unitsOf : Build Layer State Int := do
  let shapes := (← claimAttr v.name "_output_shapes").items.shapes
  let last : List Int ← orFault .position shapes.getLast?
  orFault .position last.getLast?

def matrixProduct : Convert Unit := do
  let k ← carry v "MatMul" (some 1)
  setInt k "units" (.int (← unitsOf v))
  let read ← sourceAt v 1
  let node ← sourceAt read 0
  storeWeight v "weights" node.name
  onNext v (· == "Add") (fun _ sum => do
    takeOutput v.name sum.name
    identify v k "FullyConnected"
    let read ← sourceAt sum 1
    let bias ← orFault .position read.sources.head?
    storeWeight v "bias" bias
    setFlag k "use_bias" (.bool true)) do
    identify v k "FullyConnected"
    assign k [("use_bias", .bool false)]

def setKeepProb (k : Nat) (keep : Vertex Layer) : Convert Unit := do
  if has keep "value" then
    let x ← orFault .position (← claimLiteral keep.name "value").floats.head?
    setFloat k "keep_prob" (.float x)
  else setFloat k "keep_prob" (.float 1.0)

def division : Convert Unit := do
  Run.require ((← enclosing v.name) == "dropout")
  let k ← carry v "Dropout" (some 1)
  setKeepProb k (← inputAt v 1)
  let product ← vertex (← orFault .position v.targets.head?)
  Run.require (product.item.op == "Mul")
  cover product.name
  rename product.name v.name
  let floor ← sourceAt product 1
  Run.require (floor.item.op == "Floor")
  cover floor.name

def floor : Convert Unit := do
  Run.require ((← enclosing v.name) == "dropout")

def pooling (word : String) (v : Vertex Layer) : Convert Unit := do
  let k ← carry v "Pool"
  setPool v k word

def squeeze : Convert Unit := do
  let k ← carry v "Squeeze"
  mergeAttr k "axes" (← claimAttr v.name "squeeze_dims")

def dequeue : Convert Unit := do
  let k ← carry v "DataInput" (some 0)
  let _ ← attr k "shape"
  let shapes := (← claimAttr v.name "_output_shapes").items.shapes
  mergeShape k "shape" (← orFault .position shapes.head?)
  changeAttr k "shape" fun a => (leadWith (-1) a.dims).map .shape
  let types := (← claimAttr v.name "component_types").items.types
  let type : Int ← orFault .position types.head?
  setType k "dtype" (← orFault .key (elementType? type))

def secondConstant : Convert Tensor := do
  let node ← parent v.name [1]
  arrayOf (← claimLiteral node.name "value")

def pad : Convert Unit := do
  let k ← carry v "Pad" (some 1)
  let t ← secondConstant v
  let pads ← Padding.unpair (← (Value.ofTensor (← t.reshape [-1])).elements)
  assign k [("mode", .text "constant"), ("constant_values", .float 0.0), ("pads", .list pads)]

def setAxes (k : Nat) (t : Tensor) : Convert Unit := do
  let _ ← attr k "axes"
  match Value.ofTensor t with
  | .list vs =>
    Run.require (t.elem != .bool || vs.isEmpty) .kind
    addInts k "axes" vs
  | x => Run.require (!x.isSet) .kind

def mean : Convert Unit := do
  let k ← carry v "ReduceMean" (some 1)
  setFlag k "keepdims" (.bool (← claimAttr v.name "keep_dims").flagValue)
  setAxes k (← secondConstant v)

def concat : Convert Unit := do
  let n := v.sources.length
  let k ← carry v "Concat" (some (n - 1))
  let axis ← parent v.name [(n : Int) - 1]
  let i : Int ← orFault .position (← claimLiteral axis.name "value").ints.head?
  setInt k "axis" (.int i)

def isOne (x : Float) : Bool := (x - 1.0).abs ≤ 1e-8 + 1e-5

def setConstantScale (k : Nat) (t : LiteralTensor) : Convert Unit := do
  match t.dims, t.floats with
  | [n], [x] =>
    if isOne x then setFlag k "scale" (.bool false)
    else
      setFlag k "scale" (.bool true)
      if ← hasWeights then
        setWeight v.name "scale" (.array (.ofFloats (List.replicate n.toNat x)))
  | _, _ => throw .condition

def setScale (k : Nat) : Convert Unit := do
  let scale ← parent v.name [1] true
  if scale.item.op = "Const" then setConstantScale v k (← literal scale "value")
  else
    let node ← parent? scale.name [0] true
    if ← hasWeights then
      setWeight v.name "scale" (← stored (← orFault .property node).name)
    setFlag k "scale" (.bool true)

def batchNorm : Convert Unit := do
  let k ← carry v "BatchNorm" (some 1)
  setFloat k "epsilon" (← get v "epsilon" (.int 0))
  setScale v k
  let bias ← parent? v.name [2, 0] true
  setFlag k "bias" (.bool true)
  let mean ← parent? v.name [3, 0] true
  let variance ← parent? v.name [4, 0] true
  if ← hasWeights then
    [("bias", bias), ("mean", mean), ("var", variance)].forM fun (name, node) => do
      setWeight v.name name (← stored (← orFault .property node).name)

def transpose : Convert Unit := do
  let k ← carry v "Transpose" (some 1)
  let t ← secondConstant v
  assign k [("perm", .ofTensor t)]

def unknown : Convert Unit := do
  if !silentOps.contains v.item.op then
    say ("Tensorflow has not supported operator [" ++ v.item.op ++ "] with name [" ++ v.name ++ "].")

def rule? : String → Option (Vertex Layer → Convert Unit)
  | "Placeholder" => some placeholder
  | "Conv2D" => some convolution
  | "Relu" => some fun v => do let _ ← carry v "Relu"
  | "Relu6" => some fun v => do let _ ← carry v "Relu6"
  | "Add" => some add
  | "Sub" => some fun v => do let _ ← carry v "Sub"
  | "Reshape" => some reshape
  | "MatMul" => some matrixProduct
  | "RealDiv" => some division
  | "Floor" => some floor
  | "MaxPool" => some (pooling "MAX")
  | "AvgPool" => some (pooling "AVG")
  | "Identity" => some passOn
  | "Squeeze" => some squeeze
  | "QueueDequeueManyV2" => some dequeue
  | "Pad" => some pad
  | "Mean" => some mean
  | "ConcatV2" => some concat
  | "DepthwiseConv2dNative" => some depthwise
  | "FusedBatchNorm" => some batchNorm
  | "Transpose" => some transpose
  | "Sigmoid" => some fun v => do let _ ← carry v "Sigmoid"
  | "Mul" => some fun v => do let _ ← carry v "Mul"
  | _ => none

def convertNode : Convert Unit :=
  match rule? v.item.op with
  | some rule => rule v
  | none => unknown v

def start (nodes : List Layer) (checkpoint : Option (Table Tensor)) : Builder Layer State :=
  let (g, log) := graphOf nodes
  { graph := g, log := log, loaded := checkpoint.isSome, own := checkpoint.getD ∅ }

def convert : Convert Unit :=
  convertKept (fun v => trainingStarts.any (Text.startsWith v.name)) convertNode

end NetBridge.Source.Checkpoint
