import NetBridge.Source.Builder

/-!
# Keras models

A model is a list of layer objects. A layer has a class and a name, the layers it reads, its stored
arrays, and whatever properties its class gives it; asking for one that it does not have is a fault.
-/

namespace NetBridge.Source.Keras

structure Node where
  kind : String
  name : String
  inbound : List (List String) := []
  hidden : Bool := false
  arrays : List Value := []
  settings : Value := .record []
  properties : Table Value := ∅
  deriving Inhabited

structure Model where
  kind : String := "Model"
  channelsLast : Bool := true
  nodes : List Node := []
  deriving Inhabited

def wire (m : Model) (name : String) (g : Graph Node × List String) (source : String) :
    Except Fault (Graph Node × List String) := do
  let graph ←
    if g.1.has source then pure g.1
    else do
      let n ← orFault .key (m.nodes.find? fun n => n.name == source)
      pure (g.1.add source n)
  let (graph, log) := graph.connect source name
  return (graph, g.2 ++ log)

/-- The graph of a model, and the reports on edges left out. A layer that comes after one that reads it
is added anew, without that edge. -/
def graphOf (m : Model) : Except Fault (Graph Node × List String) := do
  if m.kind ≠ "Model" && m.kind ≠ "Sequential" then
    throw (.report .kind "Keras layer of type <class 'frameworks.KOther'> is not supported.")
  let (g, log) ← (m.nodes.filter fun n => !n.hidden).foldlM (fun g n =>
    n.inbound.flatten.foldlM (wire m n.name) (g.1.add n.name n, g.2)) (({}, []) : Graph Node × List String)
  return (g.finish, log)

structure State where
  channelsLast : Bool := true
  functions : Nat := 0
  deriving Inhabited

abbrev Convert (β : Type) := Build Node State β

/-! ## Properties -/

variable (v : Vertex Node)

def property (name : String) : Except Fault Value :=
  v.item.properties.get name .property

def hasProperty (name : String) : Bool := v.item.properties.contains name

def stored (i : Nat) : Except Fault Value :=
  orFault .position v.item.arrays[i]?

def perAxis (name : String) (dim : Nat) : Except Fault Value := do
  match ← property v name with
  | .int n => return .int (n * dim)
  | .bool b => return .int ((if b then 1 else 0) * dim)
  | x => return x

def elementType (v : Value) : Except Fault Int :=
  match v with
  | .text "float16" => .ok 9 | .text "float32" => .ok 10 | .text "float64" => .ok 11
  | .text "int16" => .ok 2 | .text "int32" => .ok 3 | .text "int64" => .ok 4
  | .text "uint8" => .ok 5 | .text "uint16" => .ok 6
  | .list _ | .record _ => .error .kind
  | _ => .error .key

def activationOp (name : String) : Except Fault String :=
  match name with
  | "relu" => .ok "Relu" | "softmax" => .ok "Softmax" | "sigmoid" => .ok "Sigmoid"
  | "tanh" => .ok "Tanh" | "elu" => .ok "Elu" | "relu6" => .ok "Relu6"
  | "softplus" => .ok "Softplus" | "softsign" => .ok "Softsign"
  | "hard_sigmoid" => .ok "HardSigmoid"
  | _ => .error .key

/-! ## Parts of layers -/

def setShape (k : Nat) : Convert Unit := do
  let dims ← (← property v "output_shape").elements
  let sizes ← dims.mapM fun d => (if d.isSet then int64Of d else .ok (-1) : Except Fault Int)
  addShape k "_output_shapes" sizes

def identify (k : Nat) (op : String) : Convert Unit := do
  setName k v.name
  setOp k op
  if hasProperty v "dtype" then setType k "dtype" (← elementType (← property v "dtype"))
  setShape v k

def carry (op : String) : Convert Nat := do
  let k ← newLayer
  identify v k op
  readSources v k
  return k

def setPads (k : Nat) (kernel strides : Value) : Convert Unit := do
  let shape ← (← property v "input_shape").elements
  match ← property v "padding" with
  | .text "valid" =>
    assign k [("auto_pad", .text "VALID"), ("pads", .ints (List.replicate (2 * shape.length) 0))]
  | .text "same" =>
    let pads ← Padding.sameOf false shape kernel (← strides.elements)
    assign k [("auto_pad", .text "SAME_LOWER"), ("pads", .ints pads)]
  | _ => throw .condition

def splitActivation : Convert Unit := do
  match ← property v "activation" with
  | .text "linear" | .none => pure ()
  | f =>
    let k ← newLayer
    let name ← outputNameOf v.name
    setName k (name ++ "_activation")
    setOp k (← activationOp f.display)
    addInput k name
    setShape v k
    if hasProperty v "alpha" then throw { cause := .undefined }
    rename v.name (name ++ "_activation")

def framed (x : Value) : Except Fault Value := do
  return .list ([.int 1] ++ (← x.elements) ++ [.int 1])

/-! ## Layers -/

def convolutionOp (kind : String) : Except Fault String :=
  if Text.startsWith kind "Conv" then .ok "Conv"
  else if Text.startsWith kind "Deconv" then .ok "ConvTranspose"
  else if Text.startsWith kind "Depthwise" then .ok "DepthwiseConv"
  else .error (.report .unsupported ("Convolution layer [" ++ kind ++ "] is not supported."))

def storeKernel : Convert Unit := do
  if ← hasWeights then
    setWeight v.name "weights" (← stored v 0)
    if (← property v "use_bias").isSet then setWeight v.name "bias" (← stored v 1)

def storeFilters : Convert Unit := do
  if ← hasWeights then
    setWeight v.name "depthwise_filter" (← stored v 0)
    setWeight v.name "pointwise_filter" (← stored v 1)

def beginConvolution (k : Nat) : Convert Unit := do
  if Text.startsWith v.item.kind "Separable" then
    identify v k "SeparableConv"
    storeFilters v
  else
    identify v k (← convolutionOp v.item.kind)
    storeKernel v

def filtersOf : Except Fault Value := do
  let f ← property v "filters"
  if f.isSet then return f else property v "depth_multiplier"

def convolution (dim : Nat) (v : Vertex Node) : Convert Unit := do
  let k ← newLayer
  readSources v k
  beginConvolution v k
  let kernel ← perAxis v "kernel_size" dim
  let strides ← perAxis v "strides" dim
  let dilation ← perAxis v "dilation_rate" dim
  setPads v k kernel strides
  let input ← property v "input_shape"
  let channels ← input.index (if (← own).channelsLast then -1 else 1)
  let filters ← filtersOf v
  let ends := if Text.startsWith v.item.kind "Deconv" then [filters, channels] else [channels, filters]
  let shape := (← kernel.elements) ++ ends
  let bias ← property v "use_bias"
  let strides ← framed strides
  let dilations ← framed dilation
  assign k [("kernel_shape", .list shape), ("use_bias", bias), ("strides", strides),
    ("dilations", dilations)]
  splitActivation v

def wholePooling (dim : Nat) (method : String) (v : Vertex Node) : Convert Unit := do
  let k ← carry v "Pool"
  assign k [("pooling_type", .text method), ("global_pooling", .bool true),
    ("strides", .ints (List.replicate (dim + 2) 1))]
  let f ← newLayer
  setName f (v.name ++ "_flatten")
  setOp f "Flatten"
  addInput f v.name
  setShape v f
  rename v.name (v.name ++ "_flatten")

def pooling (dim : Nat) (method : String) (v : Vertex Node) : Convert Unit := do
  let k ← carry v "Pool"
  let size ← perAxis v "pool_size" dim
  let strides ← perAxis v "strides" dim
  let kernel ← (if hasProperty v "kernel_size" then property v "kernel_size" else .ok size : Except Fault Value)
  setPads v k kernel strides
  let strides ← framed strides
  let size ← framed size
  assign k [("pooling_type", .text method), ("strides", strides), ("kernel_shape", size)]

def merge (op : String) (v : Vertex Node) : Convert Unit := do
  let k ← carry v op
  if hasProperty v "axis" then setInt k "axis" (← property v "axis")

def alike (vs : List Value) : List Value :=
  let isText : Value → Bool
    | .text _ => true
    | _ => false
  let isFloat : Value → Bool
    | .float _ => true
    | _ => false
  if vs.any isText then vs.map fun v => .text v.display
  else if vs.any isFloat then vs.map fun v =>
    match v.toFloat with
    | .ok x => .float x
    | .error _ => v
  else vs.map fun v =>
    match v.toInt with
    | .ok n => .int n
    | .error _ => v

def zeroPadding : Convert Unit := do
  let k ← carry v "Pad"
  let pairs ← (← property v "padding").elements
  let inner ← pairs.mapM fun p => (p.elements : Except Fault (List Value))
  let pads := alike ([.int 0, .int 0] ++ inner.flatten ++ [.int 0, .int 0])
  assign k [("mode", .text "constant"), ("pads", .list (← Padding.unpair pads))]

def unknown : Convert Unit := do
  say v.item.settings.display
  let _ ← carry v v.item.kind

def activation (v : Vertex Node) : Convert Unit := do
  let k ← newLayer
  match ← property v "activation" with
  | .text f => identify v k (← activationOp f)
  | _ => throw .property
  readSources v k

def inputLayer : Convert Unit := do
  let k ← carry v "DataInput"
  (← (← property v "output_shape").elements).forM fun d =>
    addSize k "shape" (if d.isNone then .int (-1) else d)

def dropout : Convert Unit := do
  let k ← carry v v.item.kind
  setFloat k "keep_prob" (← property v "rate")
  let seed ← property v "seed"
  if !seed.isNone then setInt k "seed" seed

def dense : Convert Unit := do
  let k ← carry v "FullyConnected"
  setInt k "units" (← property v "units")
  setFlag k "use_bias" (← property v "use_bias")
  if ← hasWeights then
    setWeight v.name "weights" (← stored v 0)
    if (← attr k "use_bias").flagValue then setWeight v.name "bias" (← stored v 1)
  splitActivation v

def embedding : Convert Unit := do
  let k ← carry v v.item.kind
  setInt k "input_dim" (← property v "input_dim")
  setInt k "output_dim" (← property v "output_dim")
  setFlag k "mask_zero" (← property v "mask_zero")
  if ← hasWeights then setWeight v.name "embedding_weights" (← stored v 0)

def lstm : Convert Unit := do
  let k ← carry v v.item.kind
  setInt k "units" (← property v "units")
  setFlag k "use_bias" (← property v "use_bias")
  setFloat k "dropout" (← property v "dropout")
  setFloat k "recurrent_dropout" (← property v "recurrent_dropout")
  splitActivation v

def gru : Convert Unit := do
  let k ← carry v v.item.kind
  setInt k "units" (← property v "units")
  splitActivation v
  if ← hasWeights then
    setWeight v.name "gru_weights" (← stored v 0)
    setWeight v.name "gru_recurrent_weights" (← stored v 1)
    if (← property v "use_bias").isSet then setWeight v.name "gru_bias" (← stored v 2)

def reshape : Convert Unit := do
  let k ← carry v "Reshape"
  addInts k "shape" [.int (-1)]
  match ← property v "target_shape" with
  | .none => pure ()
  | s => addInts k "shape" (← s.elements)

def batchNorm : Convert Unit := do
  let k ← carry v "BatchNorm"
  setInt k "axis" (← property v "axis")
  setFlag k "scale" (← property v "scale")
  setFlag k "bias" (← property v "center")
  setFloat k "epsilon" (← property v "epsilon")
  if ← hasWeights then
    let scale := (← attr k "scale").flagValue
    let bias := (← attr k "bias").flagValue
    if scale then setWeight v.name "scale" (← stored v 0)
    let i := if scale then 1 else 0
    if bias then setWeight v.name "bias" (← stored v i)
    let i := if bias then i + 1 else i
    setWeight v.name "mean" (← stored v i)
    setWeight v.name "var" (← stored v (i + 1))

def cropping : Convert Unit := do
  let k ← carry v "Crop"
  let pairs ← (← property v "cropping").elements
  let border ← pairs.mapM fun p => (p.elements : Except Fault (List Value))
  assign k [("border", .list border.flatten)]

def plainValue : Value → Except Fault Value
  | .array t => .ok (.ofTensor t)
  | _ => .error .property

def leakyRelu : Convert Unit := do
  let k ← carry v "LeakyRelu"
  assign k [("alpha", ← plainValue (← property v "alpha"))]

def spaceToDepth : Convert Unit := do
  let k ← newLayer
  identify v k "SpaceToDepth"
  let name := "Lambda_" ++ toString (← own).functions
  setName k name
  readSources v k
  setInt k "blocksize" (.int 2)
  modifyOwn fun s => { s with functions := s.functions + 1 }
  rename v.name name

def rule? : String → Option (Vertex Node → Convert Unit)
  | "UNKNOWN" => some unknown
  | "Activation" => some activation
  | "Add" | "Maximum" => some fun v => merge v.item.kind v
  | "Multiply" => some (merge "Mul")
  | "Average" => some (merge "Avg")
  | "Concatenate" => some (merge "Concat")
  | "Conv1D" => some (convolution 1)
  | "Conv2D" | "SeparableConv2D" | "DepthwiseConv2D" => some (convolution 2)
  | "Conv3D" => some (convolution 3)
  | "InputLayer" => some inputLayer
  | "GlobalMaxPooling1D" => some (wholePooling 1 "MAX")
  | "GlobalMaxPooling2D" => some (wholePooling 2 "MAX")
  | "GlobalMaxPooling3D" => some (wholePooling 3 "MAX")
  | "GlobalAveragePooling1D" => some (wholePooling 1 "AVG")
  | "GlobalAveragePooling2D" => some (wholePooling 2 "AVG")
  | "GlobalAveragePooling3D" => some (wholePooling 3 "AVG")
  | "MaxPooling1D" => some (pooling 1 "MAX")
  | "MaxPooling2D" => some (pooling 2 "MAX")
  | "MaxPooling3D" => some (pooling 3 "MAX")
  | "AveragePooling1D" => some (pooling 1 "AVG")
  | "AveragePooling2D" => some (pooling 2 "AVG")
  | "AveragePooling3D" => some (pooling 3 "AVG")
  | "Dropout" => some dropout
  | "Dense" => some dense
  | "Flatten" => some fun v => do let _ ← carry v v.item.kind
  | "Embedding" => some embedding
  | "LSTM" => some lstm
  | "GRU" => some gru
  | "Reshape" => some reshape
  | "BatchNormalization" => some batchNorm
  | "ZeroPadding2D" => some zeroPadding
  | "Cropping1D" | "Cropping2D" | "Cropping3D" => some cropping
  | "LeakyReLU" => some leakyRelu
  | "space_to_depth_x2" => some spaceToDepth
  | _ => none

def function (v : Vertex Node) : Convert Unit := do
  match rule? v.name with
  | some rule =>
    say ("Try to convert Lambda function [" ++ v.name ++ "]")
    rule v
  | none =>
    throw (.report .unsupported ("Lambda layer [" ++ v.name ++ "] in keras is not supported yet."))

def convertNode : Convert Unit := do
  if v.item.kind = "Lambda" then function v
  else
    match rule? v.item.kind with
    | some rule => rule v
    | none =>
      say ("KerasParser has not supported operator [" ++ v.item.kind ++ "].")
      unknown v

def start (loaded : Bool) (m : Model) : Except Fault (Builder Node State) := do
  let (g, log) ← graphOf m
  return { graph := g, log := log, loaded := loaded, own := { channelsLast := m.channelsLast } }

def convert : Convert Unit := convertAll convertNode

end NetBridge.Source.Keras
