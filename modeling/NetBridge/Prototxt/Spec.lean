import NetBridge.Table
import NetBridge.Tensor.Basic

/-!
# Net descriptions

A layer of a net description reads named blobs (its bottoms) and writes others (its tops); its
settings come in one group a kind of layer, and every group is there with its defaults.
-/

namespace NetBridge.Prototxt

inductive LayerType where
  | named (s : String)
  | numbered (n : Int)
  deriving BEq, Inhabited

structure ConvSpec where
  outputs : Int := 0
  bias : Bool := true
  pad : List Int := []
  kernel : List Int := []
  stride : List Int := []
  dilation : List Int := []
  padH : Int := 0
  padW : Int := 0
  kernelH : Int := 0
  kernelW : Int := 0
  strideH : Int := 0
  strideW : Int := 0
  group : Int := 1
  deriving BEq, Inhabited

structure PoolSpec where
  method : Int := 0
  pad : Int := 0
  kernel : Int := 0
  stride : Int := 1
  padH : Int := 0
  padW : Int := 0
  kernelH : Int := 0
  kernelW : Int := 0
  strideH : Int := 0
  strideW : Int := 0
  whole : Bool := false
  deriving BEq, Inhabited

structure DenseSpec where
  outputs : Int := 0
  bias : Bool := true
  axis : Int := 1
  deriving BEq, Inhabited

structure LrnSpec where
  size : Int := 5
  alpha : Float := 1.0
  beta : Float := 0.75
  k : Float := 1.0
  deriving BEq, Inhabited

structure ScaleSpec where
  axis : Int := 1
  bias : Bool := false
  deriving BEq, Inhabited

structure Blob where
  data : List Float := []
  sizes : List Int := []
  oldSizes : List Int := [0, 0, 0, 0]
  deriving BEq, Inhabited

structure LayerSpec where
  name : String := ""
  type : LayerType := .named ""
  bottoms : List String := []
  tops : List String := []
  included : List Int := []
  excluded : List Int := []
  conv : ConvSpec := {}
  pool : PoolSpec := {}
  dense : DenseSpec := {}
  lrn : LrnSpec := {}
  scale : ScaleSpec := {}
  epsilon : Float := Decimal.toSingle 1e-5
  combination : Int := 1
  concatAxis : Int := 1
  dropoutRate : Float := 0.5
  cropOffsets : List Int := []
  reshaped : List Int := []
  memorySizes : List Int := [0, 0, 0, 0]
  inputSizes : List (List Int) := []
  dummySizes : List (List Int) := []
  blobs : List Blob := []
  deriving BEq, Inhabited

structure NetSpec where
  name : String := ""
  inputs : List String := []
  inputDims : List Int := []
  inputSizes : List (List Int) := []
  layers : List LayerSpec := []
  oldLayers : List LayerSpec := []
  deriving Inhabited

namespace NetSpec

def allLayers (n : NetSpec) : List LayerSpec :=
  if n.oldLayers.isEmpty then n.layers else n.oldLayers

def withoutBlobs (n : NetSpec) : NetSpec :=
  if n.oldLayers.isEmpty then
    { n with layers := n.layers.map fun l => { l with blobs := [] } }
  else { n with oldLayers := n.oldLayers.map fun l => { l with blobs := [] } }

end NetSpec

/-! ## Kinds of layers -/

inductive ShapeRule where
  | identity
  | scalar
  | unsupported
  | concat
  | convolution
  | deconvolution
  | data
  | dense
  | memory
  | pooling
  | reshape
  deriving DecidableEq

def shapeRule? : String → Option ShapeRule
  | "AbsVal" | "BatchNorm" | "Dropout" | "Eltwise" | "Exp" | "HDF5Output" | "LRN" | "Power" | "ReLU"
  | "Scale" | "Sigmoid" | "Silence" | "Softmax" | "TanH" | "Threshold" => some .identity
  | "Accuracy" | "ContrastiveLoss" | "EuclideanLoss" | "HingeLoss" | "InfogainLoss"
  | "MultinomialLogisticLoss" | "SigmoidCrossEntropyLoss" | "SoftmaxWithLoss" => some .scalar
  | "ArgMax" | "BNLL" | "Crop" | "Flatten" | "Im2col" | "MVN" | "Split" | "Slice" | "WindowData" =>
    some .unsupported
  | "Data" | "DummyData" | "HDF5Data" | "ImageData" | "Input" => some .data
  | "Concat" => some .concat
  | "Convolution" => some .convolution
  | "Deconvolution" => some .deconvolution
  | "InnerProduct" => some .dense
  | "MemoryData" => some .memory
  | "Pooling" => some .pooling
  | "Reshape" => some .reshape
  | _ => none

def numberedKinds : List String :=
  ["None", "Accuracy", "BNLL", "Concat", "Convolution", "Data", "Dropout", "EuclideanLoss",
   "Flatten", "HDF5Data", "HDF5Output", "Im2col", "ImageData", "InfogainLoss", "InnerProduct", "LRN",
   "MultinomialLogisticLoss", "Pooling", "ReLU", "Sigmoid", "Softmax", "SoftmaxWithLoss", "Split",
   "TanH", "WindowData", "Eltwise", "Power", "SigmoidCrossEntropyLoss", "HingeLoss", "MemoryData",
   "ArgMax", "Threshold", "DummyData", "Slice", "MVN", "AbsVal", "Silence", "ContrastiveLoss", "Exp",
   "Deconvolution"]

def numberedKind (n : Int) : Except Fault String :=
  if n < 0 then .error .key else orFault .key numberedKinds[n.toNat]?

def LayerType.kind? : LayerType → Except Fault (Option String)
  | .named s => .ok (if (shapeRule? s).isSome then some s else none)
  | .numbered n => do
    let s ← numberedKind n
    return if (shapeRule? s).isSome then some s else none

def LayerType.isNamed (t : LayerType) (s : String) : Bool :=
  match t with
  | .named n => n == s
  | .numbered _ => false

def isFeed (kind : Option String) : Bool :=
  match kind with
  | some k => ["ImageData", "Data", "HDF5Data", "HDF5Output", "WindowData", "DummyData",
      "MemoryData"].contains k
  | none => false

def isFinalLoss (kind : Option String) : Bool :=
  kind == some "SoftmaxWithLoss" || kind == some "SigmoidCrossEntropyLoss"

def handlerName (kind : String) : String :=
  if kind.length ≤ 4 then Text.lower kind else Text.snake kind

def oldGroups : List String :=
  ["accuracy", "argmax", "concat", "contrastive_loss", "convolution", "data", "dropout",
   "dummy_data", "eltwise", "exp", "hdf5_data", "hdf5_output", "hinge_loss", "image_data",
   "infogain_loss", "inner_product", "lrn", "memory_data", "mvn", "pooling", "power", "relu",
   "sigmoid", "softmax", "slice", "tanh", "threshold", "window_data", "transform", "loss"]

def newGroups : List String :=
  ["batch_norm", "bias", "crop", "elu", "embed", "flatten", "input", "log", "parameter", "prelu",
   "python", "recurrent", "reduction", "reshape", "scale", "spp", "tile"]

def LayerType.hasGroup (t : LayerType) (group : String) : Bool :=
  oldGroups.contains group ||
    match t with
    | .named _ => newGroups.contains group
    | .numbered _ => false

end NetBridge.Prototxt
