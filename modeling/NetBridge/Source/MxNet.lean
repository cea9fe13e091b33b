import NetBridge.Source.Builder

/-!
# MXNet symbols

A symbol is a list of nodes. A node reads others by their place in the list; its settings are texts.
Nodes that only stand for weights are left out of the graph.
-/

namespace NetBridge.Source.MxNet

structure Node where
  op : Option String
  settings : Value
  olderSettings : Bool
  deriving Inhabited

def settingsOf (v : Value) : Value :=
  ((["attr", "param", "attrs"].findSome? fun n => v.field? n)).getD .none

def weightWords : List String := ["_weight", "_bias", "_var", "_mean", "_gamma", "_beta", "_label"]

def namesWeight (name : String) : Bool := weightWords.any (Text.holds name)

def nodeAt? (places : List (Nat × String)) : Value → Except Fault (Option String)
  | .int n => .ok (if n < 0 then none else places.lookup n.toNat)
  | .bool b => .ok (places.lookup (if b then 1 else 0))
  | .float x => .ok ((places.find? fun p => Float.ofNat p.1 == x).map (·.2))
  | .list _ | .record _ => .error .kind
  | _ => .ok none

def wire (places : List (Nat × String)) (name : String) (g : Graph Node × List String) (v : Value) :
    Except Fault (Graph Node × List String) :=
  match v with
  | .list [] => .error .position
  | .list (i :: _) =>
    match nodeAt? places i with
    | .ok (some source) =>
      let (g', log) := g.1.connect source name
      .ok (g', g.2 ++ log)
    | .ok none => .ok g
    | .error f => .error f
  | _ => .error .condition

def place : List (Nat × String) → Nat → Graph Node × List String → List Value →
    Except Fault (Graph Node × List String)
  | _, _, g, [] => .ok g
  | places, i, g, v :: rest => do
    let name ← match v.field? "name" with
      | some (.text s) => pure s
      | some _ => throw .kind
      | none => throw .key
    let op := match v.field? "op" with
      | some (.text s) => some s
      | _ => none
    if namesWeight name && op.isNone then throw .key
    if namesWeight name && op = some "null" then place places (i + 1) g rest
    else
      let places := (i, name) :: places
      let node : Node := { op := op, settings := settingsOf v
                           olderSettings := (v.field? "attr").isSome || (v.field? "param").isSome }
      let g := (g.1.add name node, g.2)
      let inputs ← orFault .key (v.field? "inputs")
      let g ← inputs.elems.foldlM (wire places name) g
      place places (i + 1) g rest

def graphOf (nodes : List Value) : Except Fault (Graph Node × List String) := do
  let (g, log) ← place [] 0 ({}, []) nodes
  return (g.finish, log)

/-! ## Settings -/

variable (v : Vertex Node)

def setting (name : String) (default : Value := .none) : Except Fault Value := do
  require v.item.settings.isSet
  match v.item.settings with
  | .record _ => return (v.item.settings.field? name).getD default
  | _ => throw .property

def hasSetting (name : String) : Bool := (v.item.settings.field? name).isSome

def flagOf : Value → Except Fault Bool
  | .text s => let t := Text.lower s; .ok (t = "1" || t = "true")
  | _ => .error .property

def wholesOf : Value → Except Fault (List Int)
  | .text s =>
    let t := String.ofList (s.toList.filter fun c => c != '(' && c != ')')
    if t.isEmpty then .ok []
    else (Text.split ',' t).mapM fun p => orFault .value (Decimal.readInt? p)
  | _ => .error .property

def whole (name : String) (default : Value := .none) : Except Fault Int := do
  (← setting v name default).readWhole

def fraction (name default : String) : Except Fault Value := do
  (← setting v name (.text default)).readFraction

def flag (name default : String) : Except Fault Bool := do
  flagOf (← setting v name (.text default))

/-- The setting that lists one number an axis; ones if it is not given. -/
def perAxis (name : String) (dim : Nat) : Except Fault (List Int) := do
  match ← setting v name with
  | .none => return List.replicate dim 1
  | s => wholesOf s

/-! ## The state of a conversion -/

structure State where
  shapes : Table (List Value) := ∅
  dataShape : List Int := []
  arrays : Option (Table Tensor) := none
  layout : Value := .text "None"
  byName : Table Nat := ∅
  deriving Inhabited

abbrev Convert (β : Type) := Build Node State β

def lastLayouts : List String := ["NDHWC", "NHWC", "NWC"]

def firstLayouts : List String := ["NCDHW", "NCHW", "NCW"]

def layoutIn (v : Value) (names : List String) : Bool :=
  match v with
  | .text s => names.contains s
  | _ => false

def carriesAxes : Convert Bool := do
  let l := (← own).layout
  return layoutIn l firstLayouts || layoutIn l ["None"]

def axisOf (rank : Nat) (a : Int) : Int := if a = 0 then 0 else if a = 1 then rank - 1 else a - 1

def setAxis (k : Nat) (name : String) (v : Vertex Node) (from_ : String) (default : Value := .none) :
    Convert Unit := do
  if ← carriesAxes then
    let a ← whole v from_ default
    let dims ← outputDims k
    setInt k name (.int (axisOf dims.length a))
  else setInt k name (.int (← whole v from_ default))

def identify (k : Nat) (op : String) : Convert Unit := do
  if Text.startsWith v.name "_" then rename v.name (Text.drop 1 v.name)
  let name ← outputNameOf v.name
  setName k name
  setOp k op
  modifyOwn fun s => { s with byName := s.byName.insert name k }

def sizeOf : Value → Value
  | .none => .int (-1)
  | v => v

def outputSizes (v : Value) : Convert (List Value) := do
  let dims := v.elems
  if layoutIn (← own).layout lastLayouts then return dims
  else Axes.channelsLast dims

def setShapes (k : Nat) : Convert Unit := do
  match (← own).shapes.find? v.name with
  | none => pure ()
  | some outs =>
    outs.forM fun o => do
      let dims ← outputSizes o
      if (← layer k).op = "DataInput" then
        (.int (-1) :: dims.drop 1).forM fun d => addSize k "shape" (sizeOf d)
      let sizes ← dims.mapM fun d => (int64Of (sizeOf d) : Except Fault Int)
      addShape k "_output_shapes" sizes

def carry (op : String) : Convert Nat := do
  let k ← newLayer
  identify v k op
  readSources v k
  setShapes v k
  return k

def stored (suffix : String) : Convert Tensor := do
  let arrays ← orFault .property (← own).arrays
  orFault .property (arrays.find? (v.name ++ suffix))

def storeWeight (name suffix : String) : Convert Unit := do
  setWeight v.name name (.array (← stored v suffix))

def kernelLast (dim : Int) (t : Tensor) : Except Fault Tensor :=
  if 1 ≤ dim && dim ≤ 3 then t.transpose (Axes.kernelChannelsLast (dim.toNat + 2))
  else .error .kind

/-! ## Layers -/

def firstInput (k : Nat) : Convert Nat := do
  let name ← orFault .position (← layer k).inputs.head?
  orFault .key ((← own).byName.find? name)

def imageBefore : Nat → Nat → Convert (List Int)
  | 0, _ => throw .key
  | fuel + 1, k => do
    let p ← firstInput k
    let dims ← outputDims p
    if dims.length ≤ 2 then imageBefore fuel p
    else return dims.getLastD 0 :: (dims.dropLast.drop 1)

def denseMatrix (k : Nat) (t : Tensor) : Convert Tensor := do
  let image ← imageBefore ((← get).layers.size + 1) k
  let columns : Nat := t.shape.getD 1 0
  let dim := image.length + 1
  let t' ← t.reshape (image ++ [Int.ofNat columns])
  Run.require (decide (dim > 2))
  let order := ((List.range (dim - 1)).drop 1).map Int.ofNat ++ [0, Int.ofNat (dim - 1)]
  let t' ← t'.transpose order
  t'.reshape (t.shape.map Int.ofNat)

def dense : Convert Unit := do
  let k ← carry v "FullyConnected"
  setInt k "units" (.int (← whole v "num_hidden"))
  let bias := !(← flag v "no_bias" "False")
  setFlag k "use_bias" (.bool bias)
  if ← hasWeights then
    let t ← (← stored v "_weight").transpose [1, 0]
    let flat := layoutIn (← own).layout ["NM"]
    setWeight v.name "weights" (.array (← if flat then pure t else denseMatrix k t))
    if bias then storeWeight v "bias" "_bias"
  modifyOwn fun s => { s with layout := .text "NM" }

def layoutOf (dim : Nat) : Except Fault Value := do
  let given ← setting v "layout"
  if given.isNone || layoutIn given ["None"] then
    return match dim with
      | 1 => .text "NCW"
      | 2 => .text "NCHW"
      | 3 => .text "NCDHW"
      | _ => given
  else return given

def addFramed (k : Nat) (name : String) (ns : Convert (List Int)) : Convert Unit := do
  addInts k name [.int 1]
  addInts k name ((← ns).map .int)
  addInts k name [.int 1]

def addPads (k : Nat) (default : Nat) : Convert Unit := do
  if hasSetting v "pad" then
    let pad ← wholesOf (← setting v "pad")
    let half := [0] ++ pad ++ [0]
    addInts k "pads" ((half ++ half).map .int)
  else if default > 0 then addInts k "pads" (List.replicate default (.int 0))

def inputChannels (k : Nat) : Convert Int := do
  let dims ← outputDims (← firstInput k)
  orFault .position dims.getLast?

def storeKernel (layout : Value) (dim : Nat) (bias : Bool) : Convert Unit := do
  if ← hasWeights then
    let t ← stored v "_weight"
    let t ← if layoutIn layout lastLayouts then pure t else kernelLast dim t
    setWeight v.name "weights" (.array t)
    if bias then storeWeight v "bias" "_bias"

def convolution : Convert Unit := do
  let k ← newLayer
  readSources v k
  setShapes v k
  let kernel ← wholesOf (← setting v "kernel")
  let dim := kernel.length
  addInts k "kernel_shape" (kernel.map .int)
  let layout ← layoutOf v dim
  modifyOwn fun s => { s with layout := layout }
  let group ← whole v "num_group" (.text "1")
  setInt k "group" (.int group)
  let channels ← inputChannels k
  identify v k (if group = channels then "DepthwiseConv" else "Conv")
  let filters ← whole v "num_filter"
  addInts k "kernel_shape" [.int channels, .int filters]
  let bias := !(← flag v "no_bias" "False")
  setFlag k "use_bias" (.bool bias)
  addFramed k "strides" (perAxis v "stride" dim)
  addFramed k "dilations" (perAxis v "dilate" dim)
  assign k [("data_format", layout)]
  addPads v k (2 * (dim + 2))
  storeKernel v layout dim bias

def deconvolution : Convert Unit := do
  let k ← newLayer
  identify v k "ConvTranspose"
  readSources v k
  if v.item.settings.isNone then throw .kind
  addPads v k 4
  setShapes v k
  let kernel ← wholesOf (← setting v "kernel")
  let dim := kernel.length
  addInts k "kernel_shape" (kernel.map .int)
  let layout ← layoutOf v dim
  modifyOwn fun s => { s with layout := layout }
  let channels ← inputChannels k
  let filters ← whole v "num_filter"
  addInts k "kernel_shape" [.int filters, .int channels]
  setFlag k "use_bias" (.bool (!(← flag v "no_bias" "False")))
  addFramed k "strides" (perAxis v "strides" dim)
  addFramed k "dilations" (perAxis v "dilate" dim)
  changeAttr k "data_format" fun _ => .error .kind

def activationOp? : String → Option String
  | "relu" => some "Relu"
  | "sigmoid" => some "Sigmoid"
  | "tanh" => some "Tanh"
  | _ => none

def activation : Convert Unit := do
  let op ← match ← setting v "act_type" with
    | .text s => orFault .key (activationOp? s)
    | .list _ | .record _ => throw .kind
    | _ => throw .key
  let _ ← carry v op

def batchNorm : Convert Unit := do
  let k ← carry v "BatchNorm"
  setAxis k "axis" v "axis" (.text "1")
  let scale := !(← flag v "fix_gamma" "True")
  setFlag k "scale" (.bool scale)
  setFlag k "bias" (.bool true)
  setFloat k "epsilon" (← fraction v "eps" "0.001")
  setFloat k "momentum" (← fraction v "momentum" "0.9")
  if ← hasWeights then
    if scale then storeWeight v "scale" "_gamma"
    storeWeight v "bias" "_beta"
    storeWeight v "mean" "_moving_mean"
    storeWeight v "var" "_moving_var"

def pooling (v : Vertex Node) : Convert Unit := do
  let k ← newLayer
  identify v k "Pool"
  readSources v k
  match ← setting v "pool_type" with
  | .text "sum" => say "Warning: sum pooling is not supported yet."
  | .text "max" => assign k [("pooling_type", .text "MAX")]
  | .text "avg" => assign k [("pooling_type", .text "AVG")]
  | t => throw (.report .value ("Error pool_type " ++ t.display ++ "."))
  let kernel ← wholesOf (← setting v "kernel")
  if ← flag v "global_pool" "False" then
    setFlag k "global_pooling" (.bool true)
    putInts k "kernel_shape" (List.replicate (kernel.length + 2) 1)
    putInts k "strides" (List.replicate (kernel.length + 2) 1)
  else
    setFlag k "global_pooling" (.bool false)
    addFramed k "strides" (perAxis v "stride" 0)
    addFramed k "kernel_shape" (pure kernel)
    addPads v k 0
  setShapes v k

def softmaxOutput : Convert Unit := do
  let k ← newLayer
  identify v k "Softmax"
  readSources v k
  if v.item.olderSettings then say "Warning: SoftmaxOutput attrs are not supported in IR."
  setShapes v k

def softmax : Convert Unit := do
  let k ← carry v "Softmax"
  setAxis k "dim" v "axis" (.text "-1")

def elementType (v : Value) : Except Fault Int :=
  match v with
  | .text "int8" => .ok 1 | .text "int16" => .ok 2 | .text "int32" => .ok 3 | .text "int64" => .ok 4
  | .text "uint8" => .ok 5 | .text "uint16" => .ok 6 | .text "uint32" => .ok 7
  | .text "uint64" => .ok 8 | .text "float16" => .ok 9 | .text "float32" => .ok 10
  | .text "float64" => .ok 11
  | .list _ | .record _ => .error .kind
  | _ => .error .key

def embedding : Convert Unit := do
  let k ← newLayer
  identify v k "Embedding"
  readSources v k
  setInt k "input_dim" (.int (← whole v "input_dim"))
  setInt k "output_dim" (.int (← whole v "output_dim"))
  setType k "dtype" (← elementType (← setting v "dtype" (.text "float32")))
  setShapes v k

def leakyRelu : Convert Unit := do
  let kind ← setting v "act_type"
  if kind.isSet && !layoutIn kind ["elu", "prelu"] then
    say ("Warning: Activation Type " ++ kind.display ++ " is not supported yet.")
  let k ← newLayer
  if layoutIn kind ["prelu"] then
    identify v k "PRelu"
    storeWeight v "gamma" "_gamma"
  else identify v k "Elu"
  readSources v k
  if hasSetting v "slope" then
    throw (.report .value "Attribute Slope is not supported in IR format")
  setShapes v k

def lrn : Convert Unit := do
  let k ← carry v "LRN"
  setFloat k "alpha" (← fraction v "alpha" "0.0001")
  setFloat k "beta" (← fraction v "beta" "0.75")
  setFloat k "k" (← fraction v "knorm" "2")
  throw .kind

def dropout : Convert Unit := do
  let k ← carry v "Dropout"
  setFloat k "keep_prob" (← fraction v "p" "0.5")
  assign k [("mode", .text "training")]

def reshape : Convert Unit := do
  let k ← carry v "Reshape"
  match ← setting v "shape" with
  | .none => pure ()
  | s =>
    let ns ← wholesOf s
    match ns.find? fun n => n ≤ 0 && n ≠ -1 with
    | some n => throw (.report .value ("special value " ++ toString n ++
        " for Reshape is not pre-defined in IR."))
    | none => addInts k "shape" (ns.map .int)
  setShapes v k

def concat : Convert Unit := do
  let k ← carry v "Concat"
  setAxis k "axis" v "dim" (.text "1")

def cast : Convert Unit := do
  let k ← carry v "Cast"
  setType k "dtype" (← elementType (← setting v "dtype"))
  setShapes v k

def expandDims : Convert Unit := do
  let k ← carry v "expand_dims"
  setAxis k "axis" v "axis"

/-- A single number for a constant, in single precision; a missing one is no number. -/
def constantOf : Value → Except Fault Tensor
  | .none => .ok (.ofSingles [0.0 / 0.0])
  | v => do return .ofSingles [← (← v.readFraction).toFloat]

def withNumber (op : String) (v : Vertex Node) : Convert Unit := do
  let value ← setting v "scalar"
  let c ← newLayer
  let name := (← outputNameOf v.name) ++ "_second"
  setName c name
  setOp c "Constant"
  setWeight name "value" (.array (← constantOf value))
  let k ← carry v op
  addInput k name

def copy : Convert Unit := do rename v.name (← parent v.name [0]).outputName

def unknown (op : String) : Convert Unit := do
  say ("Warning: MXNet Parser has not supported operator " ++ op ++ " with name " ++ v.name ++ ".")
  if op = "null" && v.name ≠ "label" then
    say ("Warning: convert the null operator with name [" ++ v.name ++ "] into input layer.")
    let _ ← carry v "DataInput"
  else throw (.silent .unsupported)

def rule? : String → Option (Vertex Node → Convert Unit)
  | "FullyConnected" => some dense
  | "Convolution" => some convolution
  | "Activation" => some activation
  | "BatchNorm" => some batchNorm
  | "Pooling" => some pooling
  | "SoftmaxOutput" => some softmaxOutput
  | "softmax" => some softmax
  | "Deconvolution" => some deconvolution
  | "Embedding" => some embedding
  | "LeakyReLU" => some leakyRelu
  | "LRN" => some lrn
  | "ROIPooling" => some fun _ => throw (.silent .unsupported)
  | "Dropout" => some dropout
  | "reshape" => some reshape
  | "Flatten" => some fun v => do let _ ← carry v "Flatten"
  | "Concat" => some concat
  | "cast" => some cast
  | "expand_dims" => some expandDims
  | "elemwise_add" | "_Plus" | "broadcast_add" => some fun v => do let _ ← carry v "Add"
  | "broadcast_mul" | "_mul" => some fun v => do let _ ← carry v "Mul"
  | "_copy" => some copy
  | "_mul_scalar" => some (withNumber "Mul")
  | "_minus_scalar" => some (withNumber "Sub")
  | _ => none

def convertNode : Convert Unit := do
  let op ← orFault .key v.item.op
  match rule? op with
  | some rule => rule v
  | none => unknown v op

def convert : Convert Unit := convertAll convertNode

/-! ## Pad modes -/

def padMode (k : Nat) : Convert String := do
  let kernel ← wholesOf (← setting v "kernel")
  let dim := kernel.length
  let pad ← match ← setting v "pad" (.text "()") with
    | .text "()" => pure (List.replicate dim 0)
    | s => do pure (← wholesOf s)
  let stride ← perAxis v "stride" dim
  let dilate ← perAxis v "dilate" dim
  let known ← if v.sources.isEmpty then pure none else do
    let name ← orFault .position (← layer k).inputs.head?
    pure ((← own).byName.find? name)
  let sizes ← match known with
    | none => do pure (← own).dataShape
    | some p => outputDims p
  let checks ← ((List.range dim).map Int.ofNat).mapM fun i => do
    let p ← Value.nth pad i
    let x ← Value.nth sizes i
    let d ← Value.nth dilate i
    let n ← Value.nth kernel i
    let s ← Value.nth stride i
    Run.require (s != 0) { cause := .zeroDivisor }
    let out := (x + 2 * p - d * (n - 1) - 1).fdiv s + 1
    return (p == 0, out == -((-x).fdiv s))
  if checks.all (·.1) then return "VALID"
  else if checks.all (·.2) then return "SAME"
  else return "None"

def start (nodes : List Value) (sizes : List Int) (arrays : Option (Table Tensor))
    (shapes : Table (List Value)) : Except Fault (Builder Node State) := do
  let (g, log) ← graphOf nodes
  return { graph := g, log := log, loaded := arrays.isSome
           own := { arrays := arrays, dataShape := 1 :: sizes, shapes := shapes } }

end NetBridge.Source.MxNet
