import NetBridge.Code.Emitter

/-!
# CNTK code

With weights, layers call helper functions that take the weights by the layer's name; without them
the framework's own layer constructors are used.
-/

namespace NetBridge.Target

open Code

/-! ## Fixed parts of the code -/

namespace CntkText

def head : String := block ([
  "import numpy as np",
  "import cntk",
  "from cntk import ops, layers",
  "from cntk.contrib.crosstalkcaffe.unimodel.cntkinstance import BlockApiSetup",
  "",
  "__weights_dict = dict()",
  "",
  "def load_weights(weight_file):"] ++ loadGiven ++ [
  "    return weights_dict",
  "",
  "",
  "def KitModel(weight_file = None):",
  "    global __weights_dict",
  "    __weights_dict = load_weights(weight_file)",
  "",
  ""])

def helperCrop : String := block [
  "",
  "def _crop(input, border, output_shape, **kwargs):",
  "    dim = len(output_shape)",
  "    output_shape = [output_shape[-1]] + output_shape[:-1]",
  "    ref_tensor = np.zeros(shape=output_shape, dtype=np.float32)",
  "",
  "    input = cntk.transpose(input, [dim - 1] + list(range(0, dim - 1)))",
  "    layer = cntk.crop_manual(node_input=input, node_referent=ref_tensor, offset_x=border[0], offset_y=border[1])",
  "    layer = cntk.transpose(layer, list(range(1, dim)) + [0])",
  "    return layer",
  ""]

def helperLRN : String := block [
  "",
  "def lrn(input, **kwargs):",
  "    dim = len(input.output.shape)",
  "    input = cntk.transpose(input, [dim - 1] + list(range(0, dim - 1)))",
  "    layer = BlockApiSetup.lrn(**kwargs)(input)",
  "    layer = cntk.transpose(layer, list(range(1, dim)) + [0])",
  "    return layer",
  ""]

def helperFullyConnected : String := block [
  "",
  "def dense(input, name, **kwargs):",
  "    w = __weights_dict[name]['weights']",
  "    b = __weights_dict[name]['bias'] if 'bias' in __weights_dict[name] else None",
  "    return BlockApiSetup.linear(output_shape=w.shape[1], input_shape=w.shape[0], scale_init=w, bias_init=b, name=name, **kwargs)(input)",
  ""]

def helperConv : String := block [
  "",
  "def convolution(input, is_transpose, name, **kwargs):",
  "    dim = __weights_dict[name]['weights'].ndim",
  "",
  "    if is_transpose:",
  "        weight = np.transpose(__weights_dict[name]['weights'], [dim - 2, dim - 1] + list(range(0, dim - 2)))",
  "        kwargs.pop('groups', None)",
  "    else:",
  "        weight = np.transpose(__weights_dict[name]['weights'], [dim - 1, dim - 2] + list(range(0, dim - 2)))",
  "    w = cntk.Parameter(init=weight, name=name + '_weight')",
  "",
  "    input = cntk.transpose(input, [dim - 2] + list(range(0, dim - 2)))",
  "",
  "    if is_transpose:",
  "        layer = ops.convolution_transpose(w, input, **kwargs)",
  "    else:",
  "        layer = ops.convolution(w, input, **kwargs)",
  "    if 'bias' in __weights_dict[name]:",
  "        bias = np.reshape(__weights_dict[name]['bias'], [-1] + [1] * (dim - 2))",
  "        b = cntk.Parameter(init=bias, name=name + '_bias')",
  "        layer = layer + b",
  "    layer = cntk.transpose(layer, list(range(1, dim - 1)) + [0])",
  "    return layer",
  ""]

def helperPool : String := block [
  "",
  "def pooling(input, **kwargs):",
  "    dim = len(input.output.shape)",
  "    input = cntk.transpose(input, [dim - 1] + list(range(0, dim - 1)))",
  "    layer = ops.pooling(input, **kwargs)",
  "    layer = cntk.transpose(layer, list(range(1, dim)) + [0])",
  "    return layer",
  ""]

def helperGlobalPooling : String := block [
  "",
  "def global_pooling(input, type, **kwargs):",
  "    dim = len(input.output.shape)",
  "    input = cntk.transpose(input, [dim - 1] + list(range(0, dim - 1)))",
  "    layer = layers.GlobalMaxPooling(**kwargs)(input) if type == 'MAX' else layers.GlobalAveragePooling(**kwargs)(input)",
  "    layer = cntk.transpose(layer, list(range(1, dim)) + [0])",
  "    return layer",
  ""]

def helperBatchNorm : String := block [
  "",
  "def batch_normalization(input, name, epsilon, **kwargs):",
  "    mean = cntk.Parameter(init = __weights_dict[name]['mean'],",
  "        name = name + \"_mean\")",
  "    var = cntk.Parameter(init = __weights_dict[name]['var'],",
  "        name = name + \"_var\")",
  "",
  "    layer = (input - mean) / cntk.sqrt(var + epsilon)",
  "    if 'scale' in __weights_dict[name]:",
  "        scale = cntk.Parameter(init = __weights_dict[name]['scale'],",
  "            name = name + \"_scale\")",
  "        layer = scale * layer",
  "",
  "    if 'bias' in __weights_dict[name]:",
  "        bias = cntk.Parameter(init = __weights_dict[name]['bias'],",
  "            name = name + \"_bias\")",
  "        layer = layer + bias",
  "",
  "    return layer",
  ""]

end CntkText

/-! ## Layers -/

namespace Cntk

open CntkText

def innerPads (pads : List Int) : List (Int × Int) :=
  let dim := pads.length / 2
  ((pads.take dim).zip (pads.drop dim)).drop 1

structure Padded where
  lines : List Line
  input : String
  auto : Bool

def padded (v : Vertex Layer) : Emit Padded := do
  match ← autoPad? v with
  | some mode =>
    let x ← input v
    match mode with
    | .valid => return ⟨[], x, false⟩
    | .same => return ⟨[], x, true⟩
    | .other s => throw (.report .value ("Unknown padding type [" ++ s ++ "]."))
  | none =>
    let pads ← v.item.get "pads"
    if ← Padding.isNoneValue pads then return ⟨[], ← input v, false⟩
    else
      let pattern := innerPads (← pads.toInts)
      let x ← input v
      let y := v.variableName ++ "_pad"
      return ⟨[.assign 1 y ["cntk.pad(", .use x, ", pattern=",
        listText (pattern.map fun p => intTuple [p.1, p.2]), ")"]], y, false⟩

def paddedAxes (auto : Bool) (dim : Int) : String :=
  listText ("False" :: List.replicate dim.toNat (boolText auto))

def helpedConv : LayerRule := fun v => do
  need "Conv"
  let p ← padded v
  let dim := ((← (← v.item.get "strides").length) : Int) - 2
  let strides ← ints v "strides"
  let dilations ← (← v.item.get "dilations" (.list [.int 1])).toInts
  let group ← shown v "group" (.int 1)
  return p.lines ++ [.assign 1 v.variableName ["convolution(", .use p.input, ", is_transpose=",
    boolText (v.item.op = "ConvTranspose"), ", strides=", intTuple (Value.inner strides),
    ", auto_padding=", paddedAxes p.auto dim, ", dilation=", intTuple dilations, ", groups=", group,
    ", name='", v.name, "')"]]

def plainConv : LayerRule := fun v => do
  let filters ← (← v.item.get "kernel_shape").index (-1)
  let window := Value.slice (v.item.ints "kernel_shape") none (some (-2))
  let strides := Value.inner (v.item.ints "strides")
  let mode ← v.item.get "auto_pad"
  let bias ← shown v "use_bias"
  define v ["Convolution(name = '", v.name, "', num_filters = ", filters.display, ", filter_shape = (",
    joined ", " window, "), strides = (", joined ", " strides, ",), pad = ", boolText (!isText mode "VALID"),
    ", bias = ", bias, ")(", .use (← input v), ")\n"]

def conv : LayerRule := fun v => do
  if (← get).loaded then helpedConv v else plainConv v

def firstSource (v : Vertex Layer) : Emit (Vertex Layer) := do vertex (← Value.nth v.sources 0)

def isUnpadded (mode : Option AutoPad) (pads : Except Fault (List Int)) : Except Fault Bool := do
  match mode with
  | some .valid => return true
  | some .same => return false
  | some (.other s) => throw (.report .value ("Unknown padding type" ++ s ++ "."))
  | none =>
    let pads ← pads
    require (pads.length % 2 == 0)
    return (pads.take (pads.length / 2)).all (· == 0)

def unpadded (v : Vertex Layer) : Emit Bool := do
  isUnpadded (← autoPad? v) (do (← v.item.get "pads").toInts)

def poolingNumber (kind : Value) : Except Fault String :=
  if isText kind "MAX" then .ok "0"
  else if isText kind "AVG" then .ok "1"
  else .error (.silent .value)

def pool : LayerRule := fun v => do
  let x := (← firstSource v).variableName
  if (v.item.attr "global_pooling").flagValue then
    need "GlobalPooling"
    let kind ← shown v "pooling_type"
    define v ["global_pooling(", .use x, ", '", kind, "', name = '", v.name, "')"]
  else
    let dilations ← (← v.item.get "dilations" (.list [])).toInts
    Run.require (dilations.all (· == 1))
    let dim := ((← (← v.item.get "kernel_shape").length) : Int) - 2
    let auto := !(← unpadded v)
    let ceiling := Padding.isCeiling (← ints v "pads")
    let kind ← poolingNumber (← v.item.get "pooling_type")
    Run.require (← get).loaded (.silent .unsupported)
    need v.item.op
    let kernel ← ints v "kernel_shape"
    let strides ← ints v "strides"
    define v ["pooling(", .use x, ", pooling_type=", kind, ", pooling_window_shape=", intTuple (Value.inner kernel),
      ", strides=", intTuple (Value.inner strides), ", auto_padding=", paddedAxes auto dim, ", ceil_out_dim=",
      boolText ceiling, ")"]

def dataInput : LayerRule := fun v => do
  let sizes := (v.item.dims "shape").filter (· > -1)
  let elem ← if v.item.hasAttr "dtype" then pure (", dtype = np." ++ (← elementType v)) else pure ""
  define v ["cntk.input_variable((", joined ", " sizes, ",) ", elem, ", name='", v.name, "')"]

def dropout : LayerRule := fun v => do
  let above ← (← layers).parent v.name
  if (← get).phase = "train" then
    let rate ← complement (← v.item.get "keep_prob")
    let above ← orFault .property above
    define v ["Dropout(", rate.display, ", name = '", v.name, "')(", .use above.variableName, ")"]
  else
    skip v
    return []

def dense : LayerRule := fun v => do
  let x ← input v
  if (← get).loaded then
    need v.item.op
    define v ["dense(", .use x, ", name = '", v.name, "')"]
  else
    define v ["Dense(", intText v "units", ", bias = ", flagText v "use_bias", ", name = '", v.name, "')(", .use x,
      ")"]

def flatten : LayerRule := fun v => do
  define v ["ops.reshape(", .use (← input v), ", (-1,), name = '", v.name, "')"]

def reshape : LayerRule := fun v => do
  let x ← input v
  let shape ← (← v.item.get "shape").elements
  define v ["cntk.reshape(", .use x, ", shape=", (Value.tuple shape).display, ", name='", v.name, "')"]

def activation (function : String) : LayerRule := fun v => do
  define v ["layers.Activation(activation = ", function, ", name = '", v.name, "')(", .use (← input v), ")"]

def combined (operator : String) : LayerRule := fun v => do
  if v.sources.length > 1 then
    define v (operands operator (← inputs v))
  else return []

def constant : LayerRule := fun v =>
  define v ["cntk.Constant(value=__weights_dict['", v.name, "']['value'])"]

def concat : LayerRule := fun v => do
  let xs ← inputs v
  let axis ← lowered (← v.item.get "axis") 1
  define v ([.text "cntk.splice("] ++ operands ", " xs ++ ([", axis=", axis.display, ", name='", v.name,
    "')"] : List Piece))

def batchNorm : LayerRule := fun v => do
  need v.item.op
  let x ← input v
  let epsilon ← shown v "epsilon"
  define v ["batch_normalization(", .use x, ", epsilon=", epsilon, ", name='", v.name, "')"]

def pad : LayerRule := fun v => do
  let kind ← v.item.get "mode"
  let mode ←
    if isText kind "constant" then do
      let fill ← shown v "constant_values" (.float 0.0)
      pure ("mode = ops.CONSTANT_PAD, constant_value = " ++ fill)
    else if isText kind "reflect" then pure "mode = ops.REFLECT_PAD"
    else if isText kind "SYMMETRIC" then pure "mode = ops.SYMMETRIC_PAD"
    else throw .condition
  let pads ← padPairs v
  let x ← input v
  define v ["ops.pad(", .use x, ", pattern=", pairLists (pads.drop 1), ", ", mode, ")"]

def squeeze : LayerRule := fun v => do
  rename v (← firstSource v).outputName
  return []

def unary (function : String) : LayerRule := fun v => do
  define v ["_cntk.", function, "(", .use (← input v), ", name='", v.name, "')"]

def reduceMean : LayerRule := fun v => do
  let x ← input v
  let axes ← ints v "axes"
  define v ["ops.reduce_mean(", .use x, ", axis = (", joined ", " (axes.map (· - 1)), "), name = '", v.name, "')"]

def lrn : LayerRule := fun v => do
  need v.item.op
  define v ["lrn(", .use (← input v), ", k=1, n=", intText v "size", ", alpha=", floatText v "alpha", ", beta=",
    floatText v "beta", ", name='", v.name, "')"]

def leakRelu : LayerRule := fun v => do
  let x ← input v
  let alpha ← shown v "alpha"
  define v ["_cntk.relu(", .use x, ") - ", alpha, " * _cntk.relu(-", .use x, ")"]

def crop : LayerRule := fun v => do
  need v.item.op
  let shape ← outputShapeValue v
  let x ← input v
  let border ← (← v.item.get "border").elements
  define v ["_crop(", .use x, ", ", (Value.list (border.take 2)).display, ", ", intList (shape.drop 1), ", name='",
    v.outputName, "')"]

def rule : String → Option LayerRule
  | "Conv" | "ConvTranspose" => some conv
  | "Pool" => some pool
  | "UNKNOWN" => some unknown
  | "DataInput" => some dataInput
  | "Dropout" => some dropout
  | "FullyConnected" => some dense
  | "Flatten" => some flatten
  | "Reshape" => some reshape
  | "Tanh" => some (activation "ops.tanh")
  | "Relu" => some (activation "ops.relu")
  | "Softmax" => some (activation "ops.softmax")
  | "Sigmoid" => some (activation "ops.sigmoid")
  | "RNNs" => some fun _ => throw .kind
  | "LSTM" | "GRU" => some fun _ => throw .condition
  | "Add" => some (combined " + ")
  | "Sub" => some (combined " - ")
  | "Mul" => some (combined " * ")
  | "Constant" => some constant
  | "Concat" => some concat
  | "BatchNorm" => some batchNorm
  | "Pad" => some pad
  | "Squeeze" => some squeeze
  | "Log" => some (unary "log")
  | "Exp" => some (unary "exp")
  | "Reciprocal" => some (unary "reciprocal")
  | "ReduceMean" => some reduceMean
  | "LRN" => some lrn
  | "LeakRelu" => some leakRelu
  | "Crop" => some crop
  | _ => none

def helper : String → Option String
  | "Conv" => some helperConv
  | "Pool" => some helperPool
  | "GlobalPooling" => some helperGlobalPooling
  | "FullyConnected" => some helperFullyConnected
  | "BatchNorm" => some helperBatchNorm
  | "LRN" => some helperLRN
  | "Crop" => some helperCrop
  | _ => none

def returnLine : Emit Line := do
  let outs ← variableNames (← layers).outputs
  return { indent := 1, body := [.text "return "] ++ operands "," outs }

def code : Emit String := do
  let body ← emitAll (ruleOr "CntkEmitter" rule)
  let last ← returnLine
  let helpers ← helperText helper
  return head ++ "\n" ++ render (allLines body) ++ last.render ++ "\n" ++ helpers

end Cntk

end NetBridge.Target
