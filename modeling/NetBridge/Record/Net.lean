import NetBridge.Prototxt.Spec
import NetBridge.Record.Network

/-!
# Net descriptions as records

A net description is given as a record of its fields. Field names may be written with low lines or
with inner capitals.
-/

namespace NetBridge.Record

open Prototxt

def innerCapitals : List Char → List Char
  | [] => []
  | '_' :: c :: r => c.toUpper :: innerCapitals r
  | c :: r => c :: innerCapitals r

variable (v : Value)

def messageField? (name : String) : Option Value :=
  match v.field? name with
  | some x => some x
  | none => v.field? (String.ofList (innerCapitals name.toList))

def messageField (name : String) : Value := (messageField? v name).getD .none

def wholeOf : Value → Option Int
  | .int n => some n
  | .text s => Decimal.readInt? s
  | .float x => some (Scalar.truncate x)
  | _ => none

def whole (name : String) (default : Int) : Int :=
  ((messageField? v name).bind wholeOf).getD default

def wholes (name : String) : List Int := (messageField v name).elems.filterMap wholeOf

def flag (name : String) (default : Bool) : Bool :=
  match messageField v name with
  | .bool b => b
  | _ => default

def single (name : String) (default : Float) : Float :=
  match (messageField? v name).map floatOf with
  | some (.ok x) => Decimal.toSingle x
  | _ => default

def choice (name : String) (names : List (String × Int)) (default : Int) : Int :=
  match messageField v name with
  | .text s => ((names.find? fun e => e.1 == s).map (·.2)).getD default
  | .int n => n
  | _ => default

def blobShape : List Int := wholes v "dim"

def blobShapes (name : String) : List (List Int) := (messageField v name).elems.map blobShape

def oldTypeNames : List String :=
  ["NONE", "ACCURACY", "BNLL", "CONCAT", "CONVOLUTION", "DATA", "DROPOUT", "EUCLIDEAN_LOSS",
   "FLATTEN", "HDF5_DATA", "HDF5_OUTPUT", "IM2COL", "IMAGE_DATA", "INFOGAIN_LOSS", "INNER_PRODUCT",
   "LRN", "MULTINOMIAL_LOGISTIC_LOSS", "POOLING", "RELU", "SIGMOID", "SOFTMAX", "SOFTMAX_LOSS",
   "SPLIT", "TANH", "WINDOW_DATA", "ELTWISE", "POWER", "SIGMOID_CROSS_ENTROPY_LOSS", "HINGE_LOSS",
   "MEMORY_DATA", "ARGMAX", "THRESHOLD", "DUMMY_DATA", "SLICE", "MVN", "ABSVAL", "SILENCE",
   "CONTRASTIVE_LOSS", "EXP", "DECONVOLUTION"]

def rulePhases (name : String) : List Int :=
  (messageField v name).elems.map fun r => choice r "phase" [("TRAIN", 0), ("TEST", 1)] 0

def convSpec : ConvSpec :=
  { outputs := whole v "num_output" 0, bias := flag v "bias_term" true, pad := wholes v "pad"
    kernel := wholes v "kernel_size", stride := wholes v "stride", dilation := wholes v "dilation"
    padH := whole v "pad_h" 0, padW := whole v "pad_w" 0
    kernelH := whole v "kernel_h" 0, kernelW := whole v "kernel_w" 0
    strideH := whole v "stride_h" 0, strideW := whole v "stride_w" 0, group := whole v "group" 1 }

def poolSpec : PoolSpec :=
  { method := choice v "pool" [("MAX", 0), ("AVE", 1), ("STOCHASTIC", 2)] 0
    pad := whole v "pad" 0, kernel := whole v "kernel_size" 0, stride := whole v "stride" 1
    padH := whole v "pad_h" 0, padW := whole v "pad_w" 0
    kernelH := whole v "kernel_h" 0, kernelW := whole v "kernel_w" 0
    strideH := whole v "stride_h" 0, strideW := whole v "stride_w" 0
    whole := flag v "global_pooling" false }

def layerType (old : Bool) (v : Value) : LayerType :=
  if old then .numbered (choice v "type" (oldTypeNames.zipIdx.map fun (n, i) => (n, (i : Int))) 0)
  else .named (textOf v "type")

def layerSpec (old : Bool) (v : Value) : LayerSpec :=
  let group (name : String) : Value := messageField v name
  let dense := group "inner_product_param"
  let lrn := group "lrn_param"
  let scale := group "scale_param"
  let memory := group "memory_data_param"
  { name := textOf v "name", type := layerType old v
    bottoms := textsOf (v.fieldD "bottom"), tops := textsOf (v.fieldD "top")
    included := rulePhases v "include", excluded := rulePhases v "exclude"
    conv := convSpec (group "convolution_param"), pool := poolSpec (group "pooling_param")
    dense := { outputs := whole dense "num_output" 0, bias := flag dense "bias_term" true
               axis := whole dense "axis" 1 }
    lrn := { size := whole lrn "local_size" 5, alpha := single lrn "alpha" 1
             beta := single lrn "beta" 0.75, k := single lrn "k" 1 }
    scale := { axis := whole scale "axis" 1, bias := flag scale "bias_term" false }
    epsilon := single (group "batch_norm_param") "eps" (Decimal.toSingle 1e-5)
    combination := choice (group "eltwise_param") "operation" [("PROD", 0), ("SUM", 1), ("MAX", 2)] 1
    concatAxis := whole (group "concat_param") "axis" 1
    dropoutRate := single (group "dropout_param") "dropout_ratio" 0.5
    cropOffsets := wholes (group "crop_param") "offset"
    reshaped := blobShape (messageField (group "reshape_param") "shape")
    memorySizes := ["batch_size", "channels", "height", "width"].map fun n => whole memory n 0
    inputSizes := blobShapes (group "input_param") "shape"
    dummySizes := blobShapes (group "dummy_data_param") "shape" }

def netSpec : NetSpec :=
  { name := textOf v "name", inputs := textsOf (v.fieldD "input"), inputDims := wholes v "input_dim"
    inputSizes := blobShapes v "input_shape"
    layers := (v.fieldD "layer").elems.map (layerSpec false)
    oldLayers := (v.fieldD "layers").elems.map (layerSpec true) }

def blob : Blob :=
  { data := (v.fieldD "data").elems.map fun x => Decimal.toSingle ((floatOf x).toOption.getD 0)
    sizes := (v.fieldD "shape").elems.filterMap wholeOf
    oldSizes := ["num", "channels", "height", "width"].map fun n => whole v n 0 }

def addBlobs (old : Bool) (layers : List LayerSpec) (name : String) (blobs : List Blob) :
    List LayerSpec :=
  if layers.any fun l => l.name == name then
    layers.map fun l => if l.name = name then { l with blobs := l.blobs ++ blobs } else l
  else layers ++ [{ name := name, type := if old then .numbered 0 else .named "", blobs := blobs }]

def withBlobs (n : NetSpec) (v : Value) : NetSpec :=
  v.elems.foldl (fun n e =>
    match e.elems with
    | [.text name, bs] =>
      let blobs := bs.elems.map blob
      if n.oldLayers.isEmpty then { n with layers := addBlobs false n.layers name blobs }
      else { n with oldLayers := addBlobs true n.oldLayers name blobs }
    | _ => n) n

end NetBridge.Record
