import NetBridge.Code.Emitter

/-!
# Core ML models

A Core ML model is not written as code: a builder is called once for every layer. The result of a
conversion is the list of these calls.
-/

namespace NetBridge.Target.CoreMl

open Code

structure State where
  scope : Scope
  calls : List Call := []

abbrev Convert (β : Type) := Run State β

def inScope {β : Type} (e : Emit β) : Convert β := do
  let s ← get
  let (out, scope) := e.outcome s.scope
  set { s with scope := scope }
  out

instance {β : Type} : Coe (Emit β) (Convert β) := ⟨inScope⟩

def call (name : String) (named : List (String × Value)) (args : List Value := []) : Convert Unit :=
  modify fun s => { s with calls := s.calls ++ [{ name := name, args := args, named := named }] }

def featureShape : List Int → Except Fault (List Int)
  | [] => .ok [1, 1, 1]
  | [n] => .ok [1, 1, n]
  | [_, c] => .ok [c]
  | [_, n, c] => .ok [c, 1, n]
  | [_, h, w, c] => .ok [c, h, w]
  | _ => .error (.report .unassigned
      "cannot access local variable 'shape' where it is not associated with a value")

abbrev Feature := String × List Int

def featuresValue (fs : List Feature) : Value :=
  .list (fs.map fun (n, s) => .list [.text n, .ints s])

def sayFeature (role : String) (f : Feature) : Emit Unit :=
  say ("CoreML Model " ++ role ++ " Layer: [" ++ f.1 ++ "] " ++ (Value.ints f.2).display)

def inputFeature (name : String) : Emit Feature := do
  match ← (← vertex name).item.get "shape" with
  | .shape ds =>
    let f := (name, ← featureShape ds)
    sayFeature "Input" f
    return f
  | _ => throw .property

def firstSizes (v : Value) : Except Fault (List Int) := do
  if v.isSet then
    match ← v.index 0 with
    | .shape ds => return ds
    | _ => throw .property
  else return [1]

def outputFeature (name : String) : Emit Feature := do
  let shapes ← (← vertex name).item.get "_output_shapes"
  let f := (name, ← featureShape (← firstSizes shapes))
  sayFeature "Output" f
  return f

/-! ## Parts of layers -/

variable (v : Vertex Layer)

def source : Emit String := do return (← parent v.name [0]).outputName

def edgeSource : Emit String := do
  return (← vertex (← orFault .position v.sources.head?)).outputName

def weightOf (name : String) : Emit Value := do
  (← layerWeights v.name).get name Fault.key

def arrayOf : Value → Except Fault Tensor
  | .array t => .ok t
  | _ => .error .property

def fourSizes (t : Tensor) : Except Fault (Nat × Nat × Nat × Nat) :=
  match t.shape with
  | [a, b, c, d] => .ok (a, b, c, d)
  | _ => .error .value

/-- The pads of a window: at the top, left, bottom and right, or none if the output keeps its size. -/
def padsOf : Emit (Option (List Value)) := do
  match ← v.item.get "auto_pads" with
  | .none | .text "VALID" =>
    match ← v.item.get "pads" (.ints [0, 0, 0, 0]) with
    | .list ps => if ps.length = 4 then return some ps else throw .value
    | _ => return none
  | _ => return none

def padArgs (pads : Option (List Value)) : List (String × Value) :=
  ["padding_top", "padding_left", "padding_bottom", "padding_right"].zip
    (pads.getD (List.replicate 4 (.int 0)))

def biasOf (has : Value) : Emit Value :=
  if has.isSet then weightOf v "bias" else return .none

def stridesOf : Emit (Value × Value) := do
  let s ← v.item.get "strides"
  return (← s.index 1, ← s.index 2)

def count (n : Nat) : Value := .int n

/-! ## Layers -/

def convolution : Convert Unit := do
  let step : Emit (List (String × Value)) := do
    let hasBias ← v.item.get "use_bias" (.bool false)
    let filters ← (← v.item.get "kernel_shape").index (-1)
    let w ← weightOf v "weights"
    let (height, width, channels, _) ← fourSizes (← arrayOf w)
    let b ← biasOf v hasBias
    let (down, across) ← stridesOf v
    let dilations ← v.item.get "dilations" (.ints [1, 1])
    let groups ← v.item.get "groups" (.int 1)
    let pads ← padsOf v
    let input ← source v
    return [("name", .text v.outputName), ("kernel_channels", count channels), ("output_channels", filters),
      ("height", count height), ("width", count width), ("stride_height", down),
      ("stride_width", across), ("border_mode", .text (if pads.isSome then "valid" else "same")),
      ("groups", groups), ("W", w), ("b", b), ("has_bias", hasBias), ("is_deconv", .bool false),
      ("output_shape", .none), ("input_name", .text input)] ++ padArgs pads ++
      [("output_name", .text v.outputName), ("dilation_factors", dilations)]
  call "add_convolution" (← inScope step)

def depthwise : Convert Unit := do
  let step : Emit (List (String × Value)) := do
    let input ← source v
    let hasBias ← v.item.get "use_bias" (.bool false)
    let multiplier ← (← v.item.get "kernel_shape").index (-1)
    let t ← arrayOf (← weightOf v "weights")
    let (height, width, channels, _) ← fourSizes t
    let w ← t.reshape [height, width, 1, channels * (← multiplier.toInt)]
    let b ← biasOf v hasBias
    let dilations ← v.item.get "dilations" (.ints [1, 1])
    let pads ← padsOf v
    let filters := w.shape.getLastD 0
    let (down, across) ← stridesOf v
    return [("name", .text v.outputName), ("kernel_channels", .int 1), ("output_channels", count filters),
      ("height", count height), ("width", count width), ("stride_height", down),
      ("stride_width", across), ("border_mode", .text (if pads.isSome then "valid" else "same")),
      ("groups", count filters), ("W", .array w), ("b", b), ("has_bias", hasBias),
      ("is_deconv", .bool false), ("output_shape", .none)] ++ padArgs pads ++
      [("input_name", .text input), ("output_name", .text v.outputName), ("dilation_factors", dilations)]
  call "add_convolution" (← inScope step)

def innerPair (v : Value) : Except Fault (Value × Value) := do
  match Value.inner (← v.elements) with
  | [h, w] => return (h, w)
  | _ => throw .value

def pooling : Convert Unit := do
  let step : Emit (List (String × Value)) := do
    let input ← edgeSource v
    let kind ← match ← v.item.get "pooling_type" with
      | .text "MAX" => pure "MAX"
      | .text "AVG" => pure "AVERAGE"
      | t => throw (.report .kind ("Pooling type " ++ t.display ++ " not supported"))
    let isGlobal ← v.item.get "global_pooling" (.bool false)
    let strides ← v.item.get "strides"
    let rank ← strides.length
    if isGlobal.isSet && rank ≠ 4 then throw (.silent .unsupported)
    let (height, width) ← innerPair (← v.item.get "kernel_shape")
    let (down, across) ← innerPair strides
    let pads ← if isGlobal.isSet then pure (some (List.replicate 4 (Value.int 0))) else padsOf v
    return [("name", .text v.name), ("height", height), ("width", width), ("stride_height", down),
      ("stride_width", across), ("layer_type", .text kind),
      ("padding_type", .text (if pads.isSome then "VALID" else "SAME"))] ++ padArgs pads ++
      [("input_name", .text input), ("output_name", .text v.name), ("exclude_pad_area", .bool true),
       ("is_global", isGlobal)]
  call "add_pooling" (← inScope step)

/-- A layer with a factor and an offset; without an offset it cannot be built. -/
def scale : Convert Unit := do
  let step : Emit (List (String × Value)) := do
    let input ← edgeSource v
    let _ ← v.item.get "scale" (.bool false)
    let w ← weightOf v "scale"
    let hasBias ← v.item.get "hasBias" (.bool false)
    let b ← biasOf v hasBias
    let shape ← weightOf v "shapeScale"
    Run.require hasBias.isSet { cause := .unassigned }
    let biasShape ← weightOf v "shapeBias"
    return [("name", .text v.outputName), ("W", w), ("b", b), ("has_bias", hasBias),
      ("input_name", .text input), ("output_name", .text v.name), ("shape_scale", .list [shape]),
      ("shape_bias", .list [biasShape])]
  call "add_scale" (← inScope step)

def sides (v : Value) (places : List Int) : Except Fault (List Value) :=
  match v with
  | .int n => .ok (places.map fun _ => .int n)
  | .list vs => places.mapM (Value.nth vs)
  | _ => .error (.report .value ("Unrecognized padding option: " ++ v.display))

def crop : Convert Unit := do
  let input ← inScope (source v)
  let amounts ← sides (← v.item.get "border") [1, 0, 2, 3]
  call "add_crop" ([("name", .text v.name)] ++ ["top", "left", "bottom", "right"].zip amounts ++
    [("offset", .ints [0, 0]), ("input_names", .list [.text input]), ("output_name", .text v.outputName)])

def pad : Convert Unit := do
  let input ← inScope (source v)
  let amounts ← sides (← v.item.get "pads") [1, 2, 5, 6]
  let _ ← v.item.get "mode" (.text "CONSTANT")
  call "add_padding" ([("name", .text v.name)] ++ ["top", "left", "bottom", "right"].zip amounts ++
    [("value", .int 0), ("input_name", .text input), ("output_name", .text v.outputName)])

def reversed (t : Tensor) : Except Fault Tensor :=
  t.transpose ((List.range t.rank).reverse.map Int.ofNat)

def dense : Convert Unit := do
  let step : Emit (List (String × Value)) := do
    let input ← edgeSource v
    let hasBias ← v.item.get "use_bias"
    let w ← reversed (← arrayOf (← weightOf v "weights"))
    let b ← if hasBias.isSet then do pure (Value.array (← reversed (← arrayOf (← weightOf v "bias"))))
      else pure .none
    match w.shape with
    | [outputs, inputs] =>
      return [("name", .text v.name), ("W", .array w), ("b", b), ("input_channels", count inputs),
        ("output_channels", count outputs), ("has_bias", hasBias), ("input_name", .text input),
        ("output_name", .text v.name)]
    | _ => throw .value
  call "add_inner_product" (← inScope step)

def flatten : Convert Unit := do
  let input ← inScope (edgeSource v)
  call "add_flatten" [("name", .text v.name), ("mode", .int 1), ("input_name", .text input),
    ("output_name", .text v.name)]

def knownSizes : Emit (List Int) := do
  let dims := (← outputShape v).filter (· ≠ -1)
  Run.require (!dims.isEmpty) .value
  return dims

def targetShape : List Int → Value
  | [n] => .ints [1, n, 1, 1]
  | [s, n] => .ints [s, n, 1, 1]
  | [h, w, c] => .ints [1, c, h, w]
  | _ => .none

def reshape : Convert Unit := do
  let step : Emit (List (String × Value)) := do
    let before ← vertex (← orFault .position v.sources.head?)
    let old ← knownSizes before
    let new ← knownSizes v
    return [("name", .text v.outputName), ("input_name", .text before.outputName), ("output_name", .text v.outputName),
      ("target_shape", targetShape new),
      ("mode", .int (if old.length = 3 || new.length = 3 then 1 else 0))]
  call "add_reshape" (← inScope step)

def activationWith (kind : String) (params : List Value) : Convert Unit := do
  let input ← inScope (source v)
  call "add_activation" [("name", .text v.outputName), ("non_linearity", .text kind),
    ("input_name", .text input), ("output_name", .text v.outputName), ("params", .list params)]

def activation (kind : String) (names : List String) (v : Vertex Layer) : Convert Unit := do
  let params ← inScope (names.mapM (weightOf v))
  activationWith v kind (if names.isEmpty then [.none] else params)

def softmax : Convert Unit := do
  let input ← inScope (edgeSource v)
  call "add_softmax" [("name", .text v.name), ("input_name", .text input), ("output_name", .text v.name)]

def relu6 : Convert Unit := do
  let input ← orFault .position v.item.inputs.head?
  let output := v.item.name
  let positive := output ++ "_relu"
  let negated := positive ++ "_neg"
  let clipped := positive ++ "_clip"
  let negation : Value := .list [.float (-1.0), .int 0]
  call "add_activation" [] (([v.outputName, "RELU", input, positive]).map .text)
  call "add_activation" [] (([v.outputName ++ "__neg__", "LINEAR", positive, negated]).map .text ++ [negation])
  call "add_unary" [("alpha", .float (-6.0))]
    (([v.outputName ++ "__clip__", negated, clipped, "threshold"]).map .text)
  call "add_activation" [] (([v.outputName ++ "_neg2", "LINEAR", clipped, output]).map .text ++ [negation])

def merge (mode : String) (v : Vertex Layer) : Convert Unit := do
  let names ← inScope (v.sources.mapM fun n => do return (← vertex n).outputName)
  call "add_elementwise" [("name", .text v.name), ("input_names", .list (names.map .text)),
    ("output_name", .text v.name), ("mode", .text mode)]

def batchNorm : Convert Unit := do
  let step : Emit (List (String × Value)) := do
    let input ← source v
    let axis ← v.item.get "axis" (.int (-1))
    let dims ← match ← (← v.item.get "_output_shapes").index 0 with
      | .shape ds => pure ds
      | _ => throw .property
    let channels ← Value.nth dims (← axis.toInt)
    let ws ← layerWeights v.name
    let mean ← ws.get "mean" Fault.key
    let variance ← ws.get "var" Fault.key
    let shape := (← arrayOf mean).shape
    let all (x : Float) : Value := .array ⟨.float64, Grid.filled shape (.real x)⟩
    return [("name", .text v.outputName), ("channels", .int channels), ("gamma", ws.findD "scale" (all 1.0)),
      ("beta", ws.findD "bias" (all 0.0)), ("mean", mean), ("variance", variance),
      ("input_name", .text input), ("output_name", .text v.outputName)]
  call "add_batchnorm" (← inScope step)

def product (a b : Value) : Except Fault Value := do
  match ← a.toScalar, ← b.toScalar with
  | .int m, .int n => return .int (m * n)
  | x, y => return .float (x.toFloat * y.toFloat)

def localNorm : Convert Unit := do
  let input ← inScope (source v)
  let size ← v.item.get "size"
  let alpha ← v.item.get "alpha"
  let beta ← v.item.get "beta"
  let k ← v.item.get "k"
  let radius ← size.readWhole
  call "add_lrn" [("alpha", ← product alpha size), ("beta", beta), ("local_size", .int radius), ("k", k)]
    [.text v.outputName, .text input, .text v.outputName]

def separable : Convert Unit := do
  let step : Emit (List (String × Value) × List (String × Value)) := do
    let input ← source v
    let (down, across) ← stridesOf v
    let w0 ← weightOf v "depthwise_filter"
    let w1 ← weightOf v "pointwise_filter"
    let mode ← match ← v.item.get "auto_pad" with
      | .text s => pure (Text.lower ((Text.split '_' s).headD ""))
      | _ => throw .property
    let hasBias ← v.item.get "use_bias"
    let b ← biasOf v hasBias
    let shape ← match ← (← v.item.get "_output_shapes").index 0 with
      | .shape ds => pure ds
      | _ => throw .property
    let filters : Int ← orFault .position shape.getLast?
    let t ← arrayOf w0
    let (height, width, channels, multiplier) ← fourSizes t
    let inner := channels * multiplier
    let w0 ← t.reshape [height, width, 1, inner]
    let between := input ++ "_intermin_"
    let shared : List (String × Value) :=
      [("border_mode", .text mode), ("is_deconv", .bool false), ("output_shape", .none),
       ("dilation_factors", .ints [1, 1])]
    return (
      [("name", .text (v.name ++ "_step_1")), ("kernel_channels", .int 1),
       ("output_channels", count inner), ("height", count height), ("width", count width),
       ("stride_height", down), ("stride_width", across), ("groups", count channels),
       ("W", .array w0), ("b", .none), ("has_bias", .bool false), ("input_name", .text input),
       ("output_name", .text between)] ++ shared,
      [("name", .text (v.name ++ "_step_2")), ("kernel_channels", count inner),
       ("output_channels", .int filters), ("height", .int 1), ("width", .int 1),
       ("stride_height", .int 1), ("stride_width", .int 1), ("groups", .int 1), ("W", w1), ("b", b),
       ("has_bias", hasBias), ("input_name", .text between), ("output_name", .text v.outputName)] ++ shared)
  let (first, second) ← inScope step
  call "add_convolution" first
  call "add_convolution" second

def refused (f : Fault) (_ : Vertex Layer) : Convert Unit := throw f

def rule? : String → Option (Vertex Layer → Convert Unit)
  | "Conv" => some convolution
  | "DepthwiseConv" => some depthwise
  | "Pool" => some pooling
  | "Scale" => some scale
  | "UNKNOWN" => some fun v => inScope (say v.name)
  | "Crop" => some crop
  | "DataInput" => some fun _ => pure ()
  | "Dropout" => some fun v => inScope (skip v)
  | "FullyConnected" => some dense
  | "Flatten" | "Squeeze" => some flatten
  | "Reshape" => some reshape
  | "Tanh" | "Sigmoid" | "LSTM" | "GRU" => some (refused .condition)
  | "RNNs" => some (refused .kind)
  | "Gather" => some (refused (.silent .unsupported))
  | "Relu" => some (activation "RELU" [])
  | "PRelu" => some (activation "PRELU" ["gamma"])
  | "LeakyRelu" => some (activation "LEAKYRELU" ["alpha"])
  | "Elu" => some (activation "ELU" ["alpha"])
  | "ThresholdedRelu" => some (activation "THRESHOLDEDRELU" ["alpha"])
  | "ScaledTanh" => some (activation "SCALED_TANH" ["alpha", "beta"])
  | "linear" => some (activation "LINEAR" ["alpha", "beta"])
  | "SigmoidHard" => some (activation "SIGMOID_HARD" ["alpha", "beta"])
  | "ParametricSoftplus" => some (activation "PARAMETRICSOFTPLUS" ["alpha", "beta"])
  | "Softmax" => some softmax
  | "Relu6" => some relu6
  | "Add" => some (merge "ADD")
  | "Concat" => some (merge "CONCAT")
  | "BatchNorm" => some batchNorm
  | "Pad" => some pad
  | "LRN" => some localNorm
  | "SeparableConv" => some separable
  | _ => none

def convertLayer : Convert Unit := do
  inScope (say ("Converting layer " ++ v.name ++ "(" ++ v.item.op ++ ")"))
  match rule? v.item.op with
  | some rule => rule v
  | none =>
    inScope (say ("CoreMLEmitter has not supported operator [" ++ v.item.op ++ "]."))
    inScope (say v.name)
    throw .condition

/-! ## Models -/

structure Options where
  preparation : List (String × Value) := [("is_bgr", .bool false), ("red_bias", .float 0.0),
    ("green_bias", .float 0.0), ("blue_bias", .float 0.0), ("gray_bias", .float 0.0),
    ("image_scale", .float 1.0)]
  labels : Value := .none
  feature : Value := .none
  probabilities : Value := .text ""
  files : List (String × String) := []

def classes (o : Options) : Except Fault (List Value) :=
  match o.labels with
  | .text path =>
    match o.files.lookup path with
    | some s => .ok ((Text.splitLines s).map .text)
    | none => .error (.report .value ("Path to class labels [" ++ path ++ "] does not exist."))
  | .list vs => .ok vs
  | _ => .error (.report .value
      "Class labels must be a list of integers / strings, or a file path")

def setClasses (o : Options) : Convert Unit := do
  if !o.labels.isNone then
    let cs ← classes o
    let named := if o.feature.isNone then []
      else [("predicted_feature_name", o.feature), ("prediction_blob", o.probabilities)]
    call "set_class_labels" named [.list cs]

def convert (o : Options) : Convert (List Feature × List Feature) := do
  let inputs ← inScope do (← takeInputs).mapM inputFeature
  let outputs ← inScope do (← layers).outputs.mapM outputFeature
  let mode : Value := if o.labels.isNone then .none else .text "classifier"
  call "NeuralNetworkBuilder" [("mode", mode)] [featuresValue inputs, featuresValue outputs]
  let order ← inScope do return (← layers).order
  order.forM fun n => do convertLayer (← inScope (vertex n))
  setClasses o
  let image ← orFault .position (inputs.map (·.1)).head?
  call "set_pre_processing_parameters" (("image_input_names", .list [.text image]) :: o.preparation)
  inScope (say "")
  return (inputs, outputs)

end NetBridge.Target.CoreMl
