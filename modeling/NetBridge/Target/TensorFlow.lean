import NetBridge.Code.Emitter

/-!
# TensorFlow code

Every layer becomes a line that assigns the layer's variable; explicit pads become a line of their
own before it. Outside training a dropout layer is skipped.
-/

namespace NetBridge.Target

open Code

/-! ## Fixed parts of the code -/

namespace TensorFlowText

def headStart : String := block [
  "import tensorflow as tf",
  "",
  "__weights_dict = dict()",
  "",
  "is_train = "]

def headEnd : String := block ([
  "",
  "",
  "def load_weights(weight_file):",
  "    import numpy as np",
  ""] ++ loadGiven ++ [
  "    return weights_dict",
  "",
  "",
  "def KitModel(weight_file = None):",
  "    global __weights_dict",
  "    __weights_dict = load_weights(weight_file)",
  ""])

def helperConv : String := block [
  "",
  "def convolution(input, name, group, **kwargs):",
  "    w = tf.Variable(__weights_dict[name]['weights'], trainable=is_train, name=name + \"_weight\")",
  "    if group == 1:",
  "        layer = tf.nn.convolution(input, w, **kwargs)",
  "    else:",
  "        weight_groups = tf.split(w, num_or_size_splits=group, axis=-1)",
  "        xs = tf.split(input, num_or_size_splits=group, axis=-1)",
  "        convolved = [tf.nn.convolution(x, weight, **kwargs) for",
  "                    (x, weight) in zip(xs, weight_groups)]",
  "        layer = tf.concat(convolved, axis=-1)",
  "",
  "    if 'bias' in __weights_dict[name]:",
  "        b = tf.Variable(__weights_dict[name]['bias'], trainable=is_train, name=name + \"_bias\")",
  "        layer = layer + b",
  "    return layer"]

def helperPRelu : String := block [
  "",
  "def prelu(input, name):",
  "    gamma = tf.Variable(__weights_dict[name]['gamma'], name=name + \"_gamma\", trainable=is_train)",
  "    return tf.maximum(0.0, input) + gamma * tf.minimum(0.0, input)",
  "    "]

def helperBatchNorm : String := block [
  "",
  "def batch_normalization(input, name, **kwargs):",
  "    mean = tf.Variable(__weights_dict[name]['mean'], name = name + \"_mean\", trainable = is_train)",
  "    variance = tf.Variable(__weights_dict[name]['var'], name = name + \"_var\", trainable = is_train)",
  "    offset = tf.Variable(__weights_dict[name]['bias'], name = name + \"_bias\", trainable = is_train) if 'bias' in __weights_dict[name] else None",
  "    scale = tf.Variable(__weights_dict[name]['scale'], name = name + \"_scale\", trainable = is_train) if 'scale' in __weights_dict[name] else None",
  "    return tf.nn.batch_normalization(input, mean, variance, offset, scale, name = name, **kwargs)",
  ""]

def helperSeparableConv : String := block [
  "",
  "def separable_convolution(input, name, **kwargs):",
  "    depthwise = tf.Variable(__weights_dict[name]['depthwise_filter'], trainable = is_train, name = name + \"_df\")",
  "    pointwise = tf.Variable(__weights_dict[name]['pointwise_filter'], trainable = is_train, name = name + \"_pf\")",
  "    layer = tf.nn.separable_conv2d(input, depthwise, pointwise, **kwargs)",
  "    if 'bias' in __weights_dict[name]:",
  "        b = tf.Variable(__weights_dict[name]['bias'], trainable = is_train, name = name + \"_bias\")",
  "        layer = layer + b",
  "    return layer"]

def helperDepthwiseConv : String := block [
  "",
  "def depthwise_convolution(input, name, **kwargs):",
  "    depthwise = tf.Variable(__weights_dict[name]['weights'], trainable = is_train, name = name + \"_df\")",
  "    layer = tf.nn.depthwise_conv2d(input, depthwise, **kwargs)",
  "    if 'bias' in __weights_dict[name]:",
  "        b = tf.Variable(__weights_dict[name]['bias'], trainable = is_train, name = name + \"_bias\")",
  "        layer = layer + b",
  "    return layer"]

def helperConvTranspose : String := block [
  "",
  "def convolution_transpose(input, name, **kwargs):",
  "    w = tf.Variable(__weights_dict[name]['weights'], trainable=is_train, name=name + \"_weight\")",
  "    dim = __weights_dict[name]['weights'].ndim - 2",
  "    if dim == 2:",
  "        layer = tf.nn.conv2d_transpose(input, w, **kwargs)",
  "    elif dim == 3:",
  "        layer = tf.nn.conv3d_transpose(input, w, **kwargs)",
  "    else:",
  "        raise ValueError(\"Error dim number \x7b\x7d in ConvTranspose\".format(dim))",
  "",
  "    if 'bias' in __weights_dict[name]:",
  "        b = tf.Variable(__weights_dict[name]['bias'], trainable=is_train, name=name + \"_bias\")",
  "        layer = layer + b",
  "    return layer"]

end TensorFlowText

/-! ## Layers -/

namespace TensorFlow

open TensorFlowText

structure Padded where
  lines : List Line
  input : String
  padding : String

def padded (v : Vertex Layer) (extra : String := "") : Emit Padded := do
  match ← autoPad? v with
  | some mode =>
    let x ← input v
    match mode with
    | .valid => return ⟨[], x, "VALID"⟩
    | .same => return ⟨[], x, "SAME"⟩
    | .other s => throw (.report .value ("Unknown padding type [" ++ s ++ "]."))
  | none =>
    let pads ← padPairs v
    let x ← input v
    if Padding.isNonePairs pads then return ⟨[], x, "VALID"⟩
    else
      let y := v.variableName ++ "_pad"
      return ⟨[.assign 1 y ["tf.pad(", .use x, ", paddings = ", pairLists pads, extra, ")"]], y,
        "VALID"⟩

def unary (function : String) : LayerRule := fun v => do
  let x ← input v
  define v ["tf.", function, "(", .use x, ", name = '", v.name, "')"]

def combined (operator : String) : LayerRule := fun v => do
  define v (operands operator (← inputs v))

def conv : LayerRule := fun v => do
  need v.item.op
  let strides ← ints v "strides"
  let p ← padded v
  let group ← shown v "group" (.int 1)
  return p.lines ++ [.assign 1 v.variableName ["convolution(", .use p.input, ", group=", group,
    ", strides=[", joined ", " (Value.inner strides), "], padding='", p.padding, "', name='",
    v.name, "')"]]

def constant : LayerRule := fun v =>
  define v ["tf.constant(__weights_dict['", v.name, "']['value'], name='", v.name, "')"]

def pool : LayerRule := fun v => do
  let kind ← v.item.get "pooling_type"
  let (op, extra) ←
    if isText kind "MAX" then pure ("max_pool", ", constant_values=float('-Inf')")
    else if isText kind "AVG" then pure ("avg_pool", "")
    else throw (.report .value ("unknown pooling type [" ++ kind.display ++ "]."))
  let rank ← (← v.item.get "strides").length
  let suffix := if rank = 5 then "3d" else ""
  if (v.item.attr "global_pooling").flagValue then
    let x ← input v
    define v ["tf.nn.", op, suffix, "(", .use x, ", [1] + ", .use x,
      ".get_shape().as_list()[1:-1] + [1], strides = [1] * ", toString rank, ", padding = 'VALID', name = '", v.name,
      "')"]
  else
    let kernel ← ints v "kernel_shape"
    let strides ← ints v "strides"
    let p ← padded v extra
    return p.lines ++ [.assign 1 v.variableName ["tf.nn.", op, suffix, "(", .use p.input, ", [",
      joined ", " kernel, "], [", joined ", " strides, "], padding='", p.padding, "', name='",
      v.name, "')"]]

def dataInput : LayerRule := fun v => do
  Run.require v.sources.isEmpty
  let sizes := (v.item.dims "shape").map fun d => if d = -1 then "None" else toString d
  let elem ← if v.item.hasAttr "dtype" then pure ("tf." ++ (← elementType v) ++ ", ")
    else pure "tf.float32,"
  define v ["tf.placeholder(", elem, " shape = (", Text.join ", " sizes, "), name = '", v.name, "')"]

def dropout : LayerRule := fun v => do
  if (← get).phase = "train" then
    let x ← input v
    let rate := 1 - (v.item.attr "keep_prob").floatValue
    define v ["Dropout(name = '", v.name, "', dropout_rate = ", Decimal.floatText rate, ")(", .use x, ")"]
  else
    skip v
    return []

def dense : LayerRule := fun v => do
  let own := (← get).weights.findD v.name ∅
  let initial (part key : String) : String :=
    if own.contains key then
      part ++ "_initializer = tf.constant_initializer(__weights_dict['" ++ v.name ++ "']['" ++ key ++
        "']), "
    else ""
  let x ← input v
  define v ["tf.layers.dense(", .use x, ", ", intText v "units", ", ", initial "kernel" "weights",
    initial "bias" "bias", "use_bias = ", flagText v "use_bias", ")"]

def flatten : LayerRule := fun v => do
  define v ["tf.contrib.layers.flatten(", .use (← input v), ")"]

def reshape : LayerRule := fun v => do
  let x ← input v
  let sizes ← ints v "shape"
  define v ["tf.reshape(", .use x, ", [", joined ", " sizes, "], '", v.name, "')"]

def prelu : LayerRule := fun v => do
  need v.item.op
  define v ["prelu(", .use (← input v), ", name='", v.name, "')"]

def concat : LayerRule := fun v => do
  define v ([.text "tf.concat(["] ++ operands ", " (← inputs v) ++ (["], ", intText v "axis", ", name = '", v.name,
    "')"] : List Piece))

def batchNorm : LayerRule := fun v => do
  need v.item.op
  let x ← input v
  let epsilon ← shown v "epsilon"
  define v ["batch_normalization(", .use x, ", variance_epsilon=", epsilon, ", name='", v.name, "')"]

def pad : LayerRule := fun v => do
  let pads ← padPairs v
  let mode ← v.item.get "mode" (.text "constant")
  let name ←
    if isText mode "constant" then pure "CONSTANT"
    else if isText mode "reflect" then pure "REFLECT"
    else if isText mode "edge" then pure "SYMMETRIC"
    else throw (.report .unsupported ("Not support padding mode " ++ mode.display ++ "."))
  let x ← input v
  define v ["tf.pad(", .use x, ", ", pairLists pads, ", '", name, "', name='", v.variableName, "')"]

def squeeze : LayerRule := fun v => do
  define v ["tf.squeeze(", .use (← input v), ", [", joined ", " (v.item.ints "axes"), "], name = '", v.name, "')"]

def reduceMean : LayerRule := fun v => do
  let x ← input v
  let axes ← ints v "axes"
  let keep ← shown v "keepdims"
  define v ["tf.reduce_mean(", .use x, ", [", joined "," axes, "], ", keep, ", name = '", v.name, "')"]

def lrn : LayerRule := fun v => do
  let x ← input v
  let size ← lowered (← v.item.get "size") 1
  let alpha := (v.item.attr "alpha").floatValue /
    Float.ofInt ((v.item.attr "size").intValue * 2 - 1)
  let beta ← shown v "beta"
  define v ["tf.nn.lrn(", .use x, ", ", size.display, ", alpha = ", Decimal.floatText alpha, ", beta = ", beta,
    ", name = '", v.name, "')"]

def helped (function : String) (strides : Vertex Layer → Emit (List Int)) : LayerRule := fun v => do
  need v.item.op
  let ss ← strides v
  let p ← padded v
  return p.lines ++ [.assign 1 v.variableName [function, "(", .use p.input, ", strides = [",
    joined ", " ss, "], padding = '", p.padding, "', name = '", v.name, "')"]]

def crop : LayerRule := fun v => do
  let border ← ints v "border"
  Run.require (border.length == 4)
  let shape ← outputShapeValue v
  let x ← input v
  let top ← Value.nth border 0
  let left ← Value.nth border 1
  let height ← Value.nth shape 1
  let width ← Value.nth shape 2
  define v ["tf.image.crop_to_bounding_box(", .use x, ", offset_height=", toString top, ", offset_width=",
    toString left, ", target_height=", toString height, ", target_width=", toString width, ")"]

def convTranspose : LayerRule := fun v => do
  need v.item.op
  let shape ← outputShapeValue v
  let p ← padded v
  let strides ← shown v "strides"
  return p.lines ++ [.assign 1 v.variableName ["convolution_transpose(", .use p.input,
    ", output_shape=", intList (1 :: shape.drop 1), ", strides=", strides, ", padding='", p.padding,
    "', name='", v.name, "')"]]

def rule : String → Option LayerRule
  | "Conv" => some conv
  | "Constant" => some constant
  | "Pool" => some pool
  | "UNKNOWN" => some unknown
  | "Add" => some (combined " + ")
  | "Mul" => some (combined " * ")
  | "Sub" => some (combined " - ")
  | "DataInput" => some dataInput
  | "Dropout" => some dropout
  | "FullyConnected" => some dense
  | "Flatten" => some flatten
  | "Reshape" => some reshape
  | "Tanh" => some (unary "tanh")
  | "Elu" => some (unary "nn.elu")
  | "Relu" => some (unary "nn.relu")
  | "Relu6" => some (unary "nn.relu6")
  | "CRelu" => some (unary "nn.crelu")
  | "PRelu" => some prelu
  | "Softmax" => some (unary "nn.softmax")
  | "Sigmoid" => some (unary "sigmoid")
  | "Embedding" => some fun _ => throw (.silent .unsupported)
  | "LSTM" | "GRU" => some fun _ => throw .property
  | "Concat" => some concat
  | "BatchNorm" => some batchNorm
  | "Pad" => some pad
  | "Squeeze" => some squeeze
  | "ReduceMean" => some reduceMean
  | "LRN" => some lrn
  | "SeparableConv" => some (helped "separable_convolution" fun v => ints v "strides")
  | "DepthwiseConv" => some (helped "depthwise_convolution" fun v => return v.item.ints "strides")
  | "Crop" => some crop
  | "ConvTranspose" => some convTranspose
  | _ => none

def helper : String → Option String
  | "Conv" => some helperConv
  | "PRelu" => some helperPRelu
  | "BatchNorm" => some helperBatchNorm
  | "SeparableConv" => some helperSeparableConv
  | "DepthwiseConv" => some helperDepthwiseConv
  | "ConvTranspose" => some helperConvTranspose
  | _ => none

def returnLine : Emit Line := do
  let ins ← variableNames (← takeInputs)
  let outs ← variableNames (← layers).outputs
  return { indent := 1, body := [.text "return "] ++ operands ", " ins ++ [.text ", "] ++ operands ", " outs }

def code : Emit String := do
  let train := boolText ((← get).phase = "train")
  let body ← emitAll (ruleOr "TensorflowEmitter" rule)
  let last ← returnLine
  let helpers ← helperText helper
  return headStart ++ train ++ headEnd ++ "\n" ++ render (allLines body) ++ last.render ++ "\n" ++
    helpers

end TensorFlow

end NetBridge.Target
