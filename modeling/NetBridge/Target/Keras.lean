import NetBridge.Code.Emitter

/-!
# Keras code

Every layer becomes a line that applies a layer object to the layer's inputs. Explicit pads become a
padding layer of their own before it.
-/

namespace NetBridge.Target

open Code

/-! ## Fixed parts of the code -/

namespace KerasText

def head : String := block ([
  "import keras",
  "from keras.models import Model",
  "from keras import layers",
  "import keras.backend as K",
  "import numpy as np",
  "",
  "",
  "def load_weights_from_file(weight_file):"] ++ loadArrays ++ [
  "    return weights_dict",
  "",
  "",
  "def set_layer_weights(model, weights_dict):",
  "    for layer in model.layers:",
  "        if layer.name in weights_dict:",
  "            cur_dict = weights_dict[layer.name]",
  "            current_layer_parameters = list()",
  "            if layer.__class__.__name__ == \"BatchNormalization\":",
  "                if 'scale' in cur_dict:",
  "                    current_layer_parameters.append(cur_dict['scale'])",
  "                if 'bias' in cur_dict:",
  "                    current_layer_parameters.append(cur_dict['bias'])",
  "                current_layer_parameters.extend([cur_dict['mean'], cur_dict['var']])",
  "            elif layer.__class__.__name__ == \"Scale\":",
  "                if 'scale' in cur_dict:",
  "                    current_layer_parameters.append(cur_dict['scale'])",
  "                if 'bias' in cur_dict:",
  "                    current_layer_parameters.append(cur_dict['bias'])",
  "            elif layer.__class__.__name__ == \"SeparableConv2D\":",
  "                current_layer_parameters = [cur_dict['depthwise_filter'], cur_dict['pointwise_filter']]",
  "                if 'bias' in cur_dict:",
  "                    current_layer_parameters.append(cur_dict['bias'])",
  "            else:",
  "                # rot weights",
  "                current_layer_parameters = [cur_dict['weights']]",
  "                if 'bias' in cur_dict:",
  "                    current_layer_parameters.append(cur_dict['bias'])",
  "            model.get_layer(layer.name).set_weights(current_layer_parameters)",
  "",
  "    return model",
  "",
  "",
  "def KitModel(weight_file = None):",
  "    weights_dict = load_weights_from_file(weight_file) if not weight_file == None else None",
  "        "])

def yoloStart : String := block [
  "",
  "def yolo_parameter():",
  "    return "]

def yoloEnd : String := block [
  "",
  ""]

def helperSpaceToDepth : String := block [
  "",
  "def space_to_depth(input, blocksize):",
  "    import tensorflow as tf",
  "    return tf.space_to_depth(input, block_size=blocksize)",
  ""]

def helperFlatten : String := block [
  "",
  "def __flatten(name, input):",
  "    if input.shape.ndims > 2: return layers.Flatten(name = name)(input)",
  "    else: return input",
  ""]

def helperLRN : String := block [
  "",
  "from keras.layers.core import Layer",
  "class LRN(Layer):",
  "",
  "    def __init__(self, size=5, alpha=0.0005, beta=0.75, k=2, **kwargs):",
  "        self.n = size",
  "        self.alpha = alpha",
  "        self.beta = beta",
  "        self.k = k",
  "        super(LRN, self).__init__(**kwargs)",
  "",
  "    def build(self, input_shape):",
  "        self.shape = input_shape",
  "        super(LRN, self).build(input_shape)",
  "",
  "    def call(self, x, mask=None):",
  "        half_n = self.n - 1",
  "        squared = K.square(x)",
  "        scale = self.k",
  "        norm_alpha = self.alpha / (2 * half_n + 1)",
  "        if K.image_dim_ordering() == \"th\":",
  "            b, f, r, c = self.shape",
  "            squared = K.expand_dims(squared, 0)",
  "            squared = K.spatial_3d_padding(squared, padding=((half_n, half_n), (0, 0), (0,0)))",
  "            squared = K.squeeze(squared, 0)",
  "            for i in range(half_n*2+1):",
  "                scale += norm_alpha * squared[:, i:i+f, :, :]",
  "        else:",
  "            b, r, c, f = self.shape",
  "            squared = K.expand_dims(squared, -1)",
  "            squared = K.spatial_3d_padding(squared, padding=((0, 0), (0,0), (half_n, half_n)))",
  "            squared = K.squeeze(squared, -1)",
  "            for i in range(half_n*2+1):",
  "                scale += norm_alpha * squared[:, :, :, i:i+f]",
  "",
  "        scale = K.pow(scale, self.beta)",
  "        return x / scale",
  "",
  "    def compute_output_shape(self, input_shape):",
  "        return input_shape"]

def helperConv : String := block [
  "",
  "def convolution(weights_dict, name, input, group, conv_type, filters=None, **kwargs):",
  "    if not conv_type.startswith('layer'):",
  "        layer = keras.applications.mobilenet.DepthwiseConv2D(name=name, **kwargs)(input)",
  "        return layer",
  "",
  "    grouped_channels = int(filters / group)",
  "    group_list = []",
  "",
  "    if group == 1:",
  "        func = getattr(layers, conv_type.split('.')[-1])",
  "        layer = func(name = name, filters = filters, **kwargs)(input)",
  "        return layer",
  "",
  "    weight_groups = list()",
  "    if not weights_dict == None:",
  "        w = np.array(weights_dict[name]['weights'])",
  "        weight_groups = np.split(w, indices_or_sections=group, axis=-1)",
  "",
  "    for c in range(group):",
  "        x = layers.Lambda(lambda z: z[:, :, :, c * grouped_channels:(c + 1) * grouped_channels])(input)",
  "        x = layers.Conv2D(name=name + \"_\" + str(c), filters=grouped_channels, **kwargs)(x)",
  "        weights_dict[name + \"_\" + str(c)] = dict()",
  "        weights_dict[name + \"_\" + str(c)]['weights'] = weight_groups[c]",
  "",
  "        group_list.append(x)",
  "",
  "    layer = layers.concatenate(group_list, axis = -1)",
  "",
  "    if 'bias' in weights_dict[name]:",
  "        b = K.variable(weights_dict[name]['bias'], name = name + \"_bias\")",
  "        layer = layer + b",
  "    return layer"]

end KerasText

/-! ## Layers -/

namespace Keras

open KerasText

variable (v : Vertex Layer)

def spatialPads : Emit (List (Int × Int)) := do
  return Value.inner (← padPairs v)

structure Padded where
  lines : List Line
  input : String
  padding : String

def padded : Emit Padded := do
  match ← autoPad? v with
  | some mode =>
    let x ← input v
    match mode with
    | .valid => return ⟨[], x, "valid"⟩
    | .same => return ⟨[], x, "same"⟩
    | .other _ => throw .condition
  | none =>
    let pads ← spatialPads v
    let x ← input v
    if Padding.isNonePairs pads then return ⟨[], x, "valid"⟩
    else
      let y := v.variableName ++ "_input"
      return ⟨[.assign 1 y ["layers.ZeroPadding", toString pads.length, "D(padding = ",
        pairTuples pads, ")(", .use x, ")"]], y, "valid"⟩

def activation (function : String) : LayerRule := fun v => do
  define v ["layers.Activation(name='", v.name, "', activation='", function, "')(", .use (← input v), ")"]

def merged (function : String) : LayerRule := fun v => do
  let xs ← inputs v
  let axis ← if v.item.hasAttr "axis" then pure (" axis = " ++ (← shown v "axis") ++ ",") else pure ""
  define v ((["layers.", function, "(name = '", v.name, "',", axis, " inputs = ["] : List Piece) ++ operands ", " xs ++
    [.text "])"])

def convolved (kind : String) (filterAxis : Int) (filterName : String) : LayerRule := fun v => do
  need "Conv"
  let group ← shown v "group" (.int 1)
  let filters ← (← v.item.get "kernel_shape").index filterAxis
  let p ← padded v
  let dilations ← v.item.get "dilations"
  let dilations ← if dilations.isSet then dilations.toInts
    else do
      let kernel ← ints v "kernel_shape"
      pure (kernel.map fun _ => 1)
  let kernel ← ints v "kernel_shape"
  let strides ← ints v "strides"
  let bias ← shown v "use_bias"
  return p.lines ++ [.assign 1 v.variableName ["convolution(weights_dict, name='", v.name,
    "', input=", .use p.input, ", group=", group, ", conv_type='", kind, "', ", filterName, "=",
    filters.display, ", kernel_size=", intTuple (Value.slice kernel none (some (-2))), ", strides=",
    intTuple (Value.inner strides), ", dilation_rate=", intTuple (Value.inner dilations),
    ", padding='", p.padding, "', use_bias=", bias, ")"]]

def kernelAxes : Emit Int := do
  return ((← (← v.item.get "kernel_shape").length) : Int) - 2

def conv : LayerRule := fun v => do
  convolved ("layers.Conv" ++ toString (← kernelAxes v) ++ "D") (-1) "filters" v

def convTranspose : LayerRule := fun v => do
  convolved ("layers.Conv" ++ toString (← kernelAxes v) ++ "DTranspose") (-2) "filters" v

def separableConv : LayerRule := fun v => do
  Run.require ((← (← v.item.get "strides").length) == 4)
  convolved "layers.SeparableConv2D" (-1) "filters" v

def depthwiseConv : LayerRule :=
  convolved "keras.applications.mobilenet.DepthwiseConv2D" (-1) "depth_multiplier"

def dataInput : LayerRule := fun v => do
  let sizes := (v.item.dims "shape").filter (· != -1)
  let elem ← if v.item.hasAttr "dtype" then pure (", dtype = '" ++ (← elementType v) ++ "'")
    else pure ""
  define v ["layers.Input(name = '", v.name, "', shape = (", joined ", " sizes, ",) ", elem, ")"]

def dropout : LayerRule := fun v => do
  let seed := if v.item.hasAttr "seed" then intText v "seed" else "None"
  define v ["layers.Dropout(name = '", v.name, "', rate = ", floatText v "keep_prob", ", seed = ", seed, ")(",
    .use (← input v), ")"]

def dense : LayerRule := fun v => do
  let units ← shown v "units"
  let bias ← shown v "use_bias"
  define v ["layers.Dense(name = '", v.name, "', units = ", units, ", use_bias = ", bias, ")(", .use (← input v), ")"]

def flatten : LayerRule := fun v => do
  need "Flatten"
  define v ["__flatten(name = '", v.name, "', input = ", .use (← input v), ")"]

def pool : LayerRule := fun v => do
  let dim := ((← (← v.item.get "strides").length) : Int) - 2
  let kind ← v.item.get "pooling_type"
  let name ←
    if isText kind "MAX" then pure ("MaxPooling" ++ toString dim ++ "D")
    else if isText kind "AVG" then pure ("AveragePooling" ++ toString dim ++ "D")
    else do
      say kind.display
      throw .condition
  if (v.item.attr "global_pooling").flagValue then
    define v ["layers.Global", name, "(name = '", v.name, "')(", .use (← input v), ")"]
  else
    let dilations ← v.item.get "dilations"
    if dilations.isSet then Run.require ((← dilations.toInts).all (· == 1))
    let kernel ← ints v "kernel_shape"
    let strides ← ints v "strides"
    let p ← padded v
    return p.lines ++ [.assign 1 v.variableName ["layers.", name, "(name = '", v.name,
      "', pool_size = (", joined ", " (Value.inner kernel), "), strides = (",
      joined ", " (Value.inner strides), "), padding = '", p.padding, "')(", .use p.input, ")"]]

def reshape : LayerRule := fun v => do
  let sizes := (v.item.ints "shape").filter (· > 0)
  define v ["layers.Reshape(name = '", v.name, "', target_shape = (", joined ", " sizes, ",))(", .use (← input v), ")"]

def firstSource : Emit String := do Value.nth v.sources 0

def embedding : LayerRule := fun v => do
  let rows ← shown v "input_dim"
  let columns ← shown v "output_dim"
  let mask ← shown v "mask_zero"
  define v ["layers.Embedding(input_dim = ", rows, ", output_dim = ", columns, ", mask_zero = ", mask, ")(",
    .use (← firstSource v), ")"]

def recurrent : LayerRule := fun v => do
  let _ ← firstSource v
  return []

def axisOr : String :=
  if v.item.hasAttr "axis" then intText v "axis" else "-1"

def batchNorm : LayerRule := fun v => do
  define v ["layers.BatchNormalization(name = '", v.name, "', axis = ", axisOr v, ", epsilon = ",
    floatText v "epsilon", ", center = ", flagText v "bias", ", scale = ", flagText v "scale", ")(", .use (← input v),
    ")"]

def scale : LayerRule := fun v => do
  define v ["layers.Scale(name = '", v.name, "', axis = ", axisOr v, ", center = ", flagText v "bias", ", scale = ",
    flagText v "scale", ")(", .use (← input v), ")"]

def pad : LayerRule := fun v => do
  let mode ← v.item.get "mode" (.text "constant")
  if isText mode "constant" then
    let n ← (← v.item.get "pads").length
    let pads ← spatialPads v
    define v ["layers.ZeroPadding", toString ((n / 2 : Nat) - 2 : Int), "D(name='", v.name, "', padding=",
      pairTuples pads, ")(", .use (← input v), ")"]
  else
    say mode.display
    throw (.silent .unsupported)

def reduceMean : LayerRule := fun v => do
  let axes ← ints v "axes"
  let keep ← shown v "keepdims"
  define v ["layers.Lambda(lambda x: K.mean(x, axis=[", joined ", " axes, "], keepdims=", keep, "))(",
    .use (← input v), ")"]

def lrn : LayerRule := fun v => do
  need v.item.op
  let size ← shown v "size"
  let alpha ← shown v "alpha"
  let beta ← shown v "beta"
  let k ← shown v "k"
  define v ["LRN(size = ", size, ", alpha = ", alpha, ", beta = ", beta, ", k = ", k, ", name = '", v.name, "')(",
    .use (← input v), ")"]

def relu6 : LayerRule := fun v => do
  let x ← vertex (← firstSource v)
  define v ["layers.Activation(keras.applications.mobilenet.relu6, name = '", v.name, "')(", .use x.variableName, ")"]

def borderPairs : List Value → List String
  | a :: b :: r => tupleText [a.quoted, b.quoted] :: borderPairs r
  | _ => []

def crop : LayerRule := fun v => do
  let border ← (← v.item.get "border").elements
  let ps := borderPairs border
  define v ["layers.Cropping", toString ps.length, "D(cropping=", tupleText ps, ", name='", v.name, "')(",
    .use (← input v), ")"]

def leakyRelu : LayerRule := fun v => do
  let alpha ← shown v "alpha"
  define v ["layers.LeakyReLU(name='", v.name, "', alpha= ", alpha, ")(", .use (← input v), ")"]

def upsample : LayerRule := fun v => do
  let stride ← shown v "strides"
  define v ["layers.UpSampling2D(name='", v.name, "', size= (", stride, ",", stride,
    "), data_format = 'channels_last')(", .use (← input v), ")"]

def isTwo : Value → Bool
  | .int n => n == 2
  | .float x => x == 2
  | _ => false

def spaceToDepth : LayerRule := fun v => do
  need v.item.op
  Run.require (isTwo (← v.item.get "blocksize"))
  define v ["layers.Lambda(space_to_depth, arguments=\x7b'blocksize': 2\x7d, ", "name='", v.name, "')(",
    .use (← input v), ")"]

def detector : LayerRule := fun v => do
  need "Yolo"
  let x ← input v
  let anchors ← v.item.get "anchors"
  let classes ← v.item.get "classes"
  let threshold ← v.item.get "ignore_thresh"
  let jitter ← v.item.get "jitter"
  modify fun s => { s with detector := .list [anchors, classes, threshold, jitter] }
  define v [.use x]

def rule : String → Option LayerRule
  | "ConvTranspose" => some convTranspose
  | "Conv" => some conv
  | "UNKNOWN" => some unknown
  | "Add" => some (merged "add")
  | "DataInput" => some dataInput
  | "Dropout" => some dropout
  | "FullyConnected" => some dense
  | "Flatten" | "Squeeze" => some flatten
  | "Pool" => some pool
  | "Reshape" => some reshape
  | "Tanh" => some (activation "tanh")
  | "Relu" => some (activation "relu")
  | "Softmax" => some (activation "softmax")
  | "Sigmoid" => some (activation "sigmoid")
  | "Embedding" => some embedding
  | "RNNs" => some fun _ => throw .kind
  | "LSTM" | "GRU" => some recurrent
  | "Concat" => some (merged "concatenate")
  | "BatchNorm" => some batchNorm
  | "Scale" => some scale
  | "Pad" => some pad
  | "ReduceMean" => some reduceMean
  | "LRN" => some lrn
  | "SeparableConv" => some separableConv
  | "Relu6" => some relu6
  | "DepthwiseConv" => some depthwiseConv
  | "Crop" => some crop
  | "LeakyRelu" => some leakyRelu
  | "upsample" => some upsample
  | "SpaceToDepth" => some spaceToDepth
  | "yolo" => some detector
  | _ => none

def helper (settings : Value) : String → Option String
  | "Conv" => some helperConv
  | "Flatten" => some helperFlatten
  | "LRN" => some helperLRN
  | "SpaceToDepth" => some helperSpaceToDepth
  | "Yolo" => some (yoloStart ++ settings.display ++ yoloEnd)
  | _ => none

def lastLines : Emit (List Line) := do
  let ins ← variableNames (← takeInputs)
  let outs ← variableNames (← layers).outputs
  return [.assign 1 "model" ([.text "Model(inputs = ["] ++ operands ", " ins ++
      [.text "], outputs = ["] ++ operands ", " outs ++ [.text "])"]),
    .plain 1 "set_layer_weights(model, weights_dict)",
    .plain 1 "return model"]

def code : Emit String := do
  let body ← emitAll (ruleOr "KerasEmitter" rule)
  let last ← lastLines
  let helpers ← helperText (helper (← get).detector)
  return head ++ "\n" ++ render (allLines body) ++ render last ++ helpers

end Keras

end NetBridge.Target
