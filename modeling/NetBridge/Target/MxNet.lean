import NetBridge.Code.Emitter

/-!
# MXNet code

Every layer becomes a line that makes a symbol. Arrays are laid out with the channels first and filed
under the parameter names of the framework. A layer without sources reads a symbol called `data`.
-/

namespace NetBridge.Target

open Code

/-! ## Fixed parts of the code -/

namespace MxNetText

def head : String := block [
  "import mxnet as mx",
  "import numpy as np",
  "import math",
  "",
  "# mxnet-cpu only support channel first, default convert the model and weight as channel first",
  "",
  "def RefactorModel():",
  ""]

def train : String := block [
  "def train(model):",
  "    import logging",
  "    logging.getLogger().setLevel(logging.DEBUG)",
  "    model.fit(train_iter, # train data",
  "            eval_data = val_iter, # validation data",
  "            optimizer = 'sgd', # Defaults to 'sgd'",
  "            optimizer_params = \x7b'learning_rate':0.01\x7d, # use fixed learning rate",
  "            eval_metric = 'acc', # report accuracy during training, other possible predefined metrics are: 'ce', 'f1', 'mae', 'mse', 'rmse', 'top_k_accuracy'",
  "            batch_end_callback = mx.callback.Speedometer(batch_size, 100), # output progress for each 100 data batches",
  "            num_epoch = 10) # train for at most 10 dataset passes",
  "",
  "",
  ""]

def predict : String := block [
  "from collections import namedtuple",
  "Batch = namedtuple('Batch', ['data'])",
  "",
  "",
  "def get_image(url, show=False):",
  "    import cv2",
  "    # download and show the image",
  "    fname = mx.test_utils.download(url)",
  "    img = cv2.cvtColor(cv2.imread(fname), cv2.COLOR_BGR2RGB)",
  "    if img is None:",
  "        return None",
  "    if show:",
  "        import matplotlib.pyplot as plt",
  "        plt.imshow(img)",
  "        plt.axis('off')",
  "    # convert into format (batch, RGB, width, height)",
  "    img = cv2.resize(img, (224, 224))",
  "    img = np.swapaxes(img, 0, 2)",
  "    img = np.swapaxes(img, 1, 2)",
  "    img = img[np.newaxis, :]",
  "    return img",
  "",
  "",
  "def predict(model, labels, url):",
  "    # to show the image, change the argument show into True",
  "    img = get_image(url, show = False)",
  "    # compute the predict probabilities",
  "    model.forward(Batch([mx.nd.array(img)]))",
  "    prob = model.get_outputs()[0].asnumpy()",
  "    # print the top-5",
  "    prob = np.squeeze(prob)",
  "    a = np.argsort(prob)[::-1]",
  "    for i in a[0:5]:",
  "        print('prbability = %f, class = %s' %(prob[i], labels[i]))",
  "",
  "",
  ""]

def predictCall : String := block [
  "",
  "    # # call function predict",
  "    # with open('synset.txt', 'r') as f:",
  "    #     labels = [l.rstrip() for l in f]",
  "    # predict(model, labels, 'http://writm.com/wp-content/uploads/2016/08/Cat-hd-wallpapers.jpg')",
  ""]

def weightHead : String := block ([
  "def deploy_weight(model, weight_file):",
  ""] ++ loadGiven ++ [
  "    arg_params = dict()",
  "    aux_params = dict()",
  "    for weight_name, weight_data in weights_dict.items():",
  "        weight_name = str(weight_name)",
  "        if \"moving\" in weight_name:",
  "            aux_params[weight_name] = mx.nd.array(weight_data)",
  "        else:",
  "            arg_params[weight_name] = mx.nd.array(weight_data)",
  "",
  ""])

def weightTail : String := block [
  "])",
  "    model.set_params(arg_params = arg_params, aux_params = aux_params, allow_missing = True)",
  "",
  "    return model",
  "",
  "",
  ""]

end MxNetText

namespace MxNet

open MxNetText

def store (name : String) (t : Value) : Emit Unit :=
  modify fun s => { s with arrays := s.arrays.insert name t }

variable (v : Vertex Layer)

def storeFrom (own : Table Value) (part array : String) : Emit Unit := do
  store (v.name ++ part) (← own.get array Fault.key)

def arrayOf (own : Table Value) (name : String) : Except Fault Tensor := do
  match ← own.get name .key with
  | .array t => return t
  | _ => throw .property

/-! ## Pads -/

inductive Pads where
  | inner (pads : List Int)
  | outer (widths : List Int)

def Pads.ofFlat (pads : List Int) : Except Fault Pads := do
  require (pads.length % 2 == 0)
  let mid : Int := pads.length / 2
  let first := Value.slice pads (some 1) (some (mid - 1))
  let second := Value.slice pads (some (mid + 1)) (some (-1))
  let n := (mid - 2).toNat
  let ps := (first.take n).zip (second.take n)
  if ps.all fun p => p.1 == p.2 then return .inner first
  else return .outer ([0, 0, 0, 0] ++ ps.flatMap fun p => [p.1, p.2])

def padsOf : Emit Pads := do
  if v.item.hasAttr "pads" then
    let _ ← outputShape v
    Pads.ofFlat (v.item.ints "pads")
  else return .inner []

def redirect (source : String) : Emit Unit := do
  let order := (← layers).order
  if source = "data" then return ()
  Run.require (order.contains source) .key
  let w ← vertex source
  Run.require (w.targets.all order.contains) .key
  let targets := w.targets.map fun x => if x = v.variableName then v.variableName ++ "_pad" else x
  modifyGraph fun g => g.modify source fun u => { u with targets := targets }

def padLine (widths : List Int) (fill : String) : Emit Line := do
  let x ← input v
  v.sources.forM (redirect v)
  return .assign 1 (v.variableName ++ "_pad") ["mx.sym.pad(data = ", .use x,
    ", mode = 'constant', pad_width=", intTuple widths, ", constant_value = ", fill, ", name = '",
    v.name, "_pad')"]

/-! ## Layers -/

def dense : LayerRule := fun v => do
  let loaded := (← get).loaded
  let own ← if loaded then layerWeights v.name else pure ∅
  if loaded then
    let shape ← outputShape (← denseSource v)
    let t ← arrayOf own "weights"
    let t ← relayRows shape t
    store (v.name ++ "_weight") (.array (← t.transpose [1, 0]))
  let useBias := (v.item.attr "use_bias").flagValue
  if useBias && loaded then storeFrom v own "_bias" "bias"
  define v ["mx.sym.FullyConnected(data = ", .use (← input v), ", num_hidden = ", intText v "units", ", no_bias = ",
    boolText (!useBias), ", name = '", v.name, "')"]

inductive ConvKind where
  | plain
  | depthwise
  | transposed
  deriving DecidableEq

def ConvKind.function : ConvKind → String
  | .transposed => "Deconvolution"
  | _ => "Convolution"

def kernelOrder (dim : Int) : Except Fault (List Int) :=
  match dim with
  | 1 => .ok [2, 1, 0]
  | 2 => .ok [3, 2, 0, 1]
  | 3 => .ok [4, 3, 0, 1, 2]
  | _ => .error (.report .kind "not all arguments converted during string formatting")

def ConvKind.groups (kind : ConvKind) (l : Layer) : Except Fault Value :=
  if kind = .depthwise then (Value.nth (l.ints "kernel_shape") (-2)).map .int else l.get "group" (.int 1)

def ConvKind.arrange (kind : ConvKind) (dim : Int) (t : Tensor) : Except Fault Tensor := do
  (← (if kind = .depthwise then t.swapAxes (-1) (-2) else .ok t : Except Fault Tensor)).transpose (← kernelOrder dim)

def layoutName (dim : Int) : Except Fault String :=
  match dim with
  | 1 => .ok "NCW"
  | 2 => .ok "NCHW"
  | 3 => .ok "NCDHW"
  | _ => .error { cause := .unassigned }

def conv (kind : ConvKind) : LayerRule := fun v => do
  let loaded := (← get).loaded
  let own ← if loaded then layerWeights v.name else pure ∅
  if loaded then let _ ← arrayOf own "weights"
  let shape := v.item.ints "kernel_shape"
  let dim := (shape.length : Int) - 2
  let kernel := shape.take dim.toNat
  let strides := Value.inner (v.item.ints "strides")
  let dilations := Value.inner (v.item.ints "dilations")
  let pads ← padsOf v
  let filters ← Value.nth shape (if kind = .transposed then -2 else -1)
  let useBias := (← v.item.get "use_bias" (.bool false)).isSet
  if useBias && loaded then storeFrom v own "_bias" "bias"
  let groups ← kind.groups v.item
  let filters := match kind, groups with
    | .depthwise, .int n => filters * n
    | _, _ => filters
  if loaded then store (v.name ++ "_weight") (.array (← kind.arrange dim (← arrayOf own "weights")))
  let window : List Piece := [", kernel=", intTuple kernel, ", stride=", intTuple strides,
    ", dilate = (", joined ", " dilations, ")"]
  let rest (layout : String) : List Piece := [", num_filter = ", toString filters, ", num_group = ",
    groups.display, ", no_bias = ", boolText (!useBias), ", layout = '", layout, "', name = '", v.name,
    "')"]
  match pads with
  | .inner ps =>
    let x ← input v
    define v ((["mx.sym.", kind.function, "(data=", .use x] : List Piece) ++ window ++ ([", pad=",
      intTuple ps] : List Piece) ++ rest (← layoutName dim))
  | .outer widths =>
    let pre ← padLine v widths "0.0"
    return [pre, .assign 1 v.variableName ((["mx.sym.", kind.function, "(data=",
      .use (v.variableName ++ "_pad")] : List Piece) ++ window ++ rest (← layoutName dim))]

def dataInput : LayerRule := fun v =>
  define v ["mx.sym.var('", v.name, "')"]

def activation (kind : String) : LayerRule := fun v => do
  let function := if kind = "elu" then "LeakyReLU" else "Activation"
  define v ["mx.sym.", function, "(data = ", .use (← input v), ", act_type = '", kind, "', name = '", v.name, "')"]

def batchNorm : LayerRule := fun v => do
  let loaded := (← get).loaded
  let own ← if loaded then layerWeights v.name else pure ∅
  let scaled := (v.item.attr "scale").flagValue
  if loaded then
    if scaled then storeFrom v own "_gamma" "scale"
    storeFrom v own "_beta" "bias"
    storeFrom v own "_moving_var" "var"
    storeFrom v own "_moving_mean" "mean"
  define v ["mx.sym.BatchNorm(data = ", .use (← input v), ", axis = 1, eps = ", floatText v "epsilon", ", momentum = ",
    floatText v "momentum", ", fix_gamma = ", boolText (!scaled), ", use_global_stats = False, name = '", v.name, "')"]

def pool : LayerRule := fun v => do
  let whole := (v.item.attr "global_pooling").flagValue
  let steps := v.item.ints "strides"
  let kernel := if whole then List.replicate (steps.length - 2) 1
    else Value.inner (v.item.ints "kernel_shape")
  let kind ← match ← v.item.get "pooling_type" with
    | .text s => pure (Text.lower s)
    | _ => throw .property
  let pads ← padsOf v
  let middle : List Piece := [", global_pool = ", boolText whole, ", kernel=", intTuple kernel,
    ", pool_type = '", kind, "', stride=", intTuple (Value.inner steps)]
  match pads with
  | .inner ps =>
    let x ← input v
    define v ((["mx.sym.Pooling(data = ", .use x] : List Piece) ++ middle ++ ([", pad=", intTuple ps, ", name = '",
      v.name, "')"] : List Piece))
  | .outer widths =>
    let pre ← padLine v widths (if kind = "max" then "float('-inf')" else "0.0")
    return [pre, .assign 1 v.variableName ((["mx.sym.Pooling(data = ",
      .use (v.variableName ++ "_pad")] : List Piece) ++ middle ++
      ([", name = '", v.name, "')"] : List Piece))]

def softmaxOutput : LayerRule := fun v => do
  define v ["mx.sym.SoftmaxOutput(data = ", .use (← input v), ", name = 'softmax')"]

def softmax : LayerRule := fun v => do
  if v.targets.isEmpty then softmaxOutput v
  else
    define v ["mx.sym.softmax(data = ", .use (← input v), ", axis = ", intText v "dim", ", name = '", v.name, "')"]

def elementName (n : Int) : String :=
  match n with
  | 9 => "float16"
  | 11 => "float64"
  | 3 => "int32"
  | 5 => "uint8"
  | _ => "float32"

def embedding : LayerRule := fun v => do
  define v ["mx.sym.Embedding(data = ", .use (← input v), ", input_dim = ", intText v "input_dim", ", output_dim = ",
    intText v "output_dim", ", dtype = ", elementName (v.item.attr "dtype").typeValue, ", name = '", v.name, "')"]

def modeOf : Emit String := do
  let small (b : UInt8) : UInt8 := if 65 ≤ b && b ≤ 90 then b + 32 else b
  orFault { cause := .encoding } (Text.decodeUtf8 ((v.item.attr "mode").textValue.map small))

def dropout : LayerRule := fun v => do
  let mode ← if v.item.hasAttr "mode" then modeOf v else pure "training"
  define v ["mx.sym.Dropout(data = ", .use (← input v), ", p = ", floatText v "keep_prob", ", mode = '", mode,
    "', name = '", v.name, "')"]

def reshape : LayerRule := fun v => do
  define v ["mx.sym.reshape(data = ", .use (← input v), ", shape = (", joined ", " (v.item.ints "shape"),
    "), reverse = False, name = '", v.name, "')"]

def flatten : LayerRule := fun v => do
  define v ["mx.sym.flatten(data = ", .use (← input v), ", name = '", v.name, "')"]

def concat : LayerRule := fun v => do
  let rank := (← outputShape v).length
  let axis := Axes.firstAxis rank (v.item.attr "axis").intValue
  define v ([.text "mx.sym.concat("] ++ operands ", " (← inputs v) ++ ([", dim = ", toString axis, ", name = '",
    v.name, "')"] : List Piece))

def cast : LayerRule := fun v => do
  define v ["mx.sym.cast(data = ", .use (← input v), ", dtype = ", toString (v.item.attr "dtype").typeValue,
    ", name = '", v.name, "')"]

def expandDims : LayerRule := fun v => do
  define v ["mx.sym.expand_dims(data = ", .use (← input v), ", axis = ", intText v "axis", ", name = '", v.name, "')"]

def pad : LayerRule := fun v => do
  let mode ← modeOf v
  let pads ← padPairs v
  let widths := [0, 0, 0, 0] ++ (Value.inner pads).flatMap fun p => [p.1, p.2]
  define v ["mx.sym.pad(data = ", .use (← input v), ", mode = '", mode, "', pad_width = (", joined ", " widths,
    "), name = '", v.name, "')"]

def combined (function : String) : LayerRule := fun v => do
  let x ← input v
  let y ← input v 1
  define v ["mx.sym.", function, "(", .use x, ", ", .use y, ")"]

def reducedAxis (a : Int) : Except Fault Int :=
  match a with
  | 1 => .ok 2
  | 2 => .ok 3
  | -1 => .ok 1
  | _ => .error .key

def reduceMean : LayerRule := fun v => do
  let axes ← (v.item.ints "axes").mapM fun a => (reducedAxis a : Emit Int)
  define v ["mx.sym.mean(data = ", .use (← input v), ", axis = (", joined "," axes, "), keepdims = ",
    flagText v "keepdims", ")"]

def lrn : LayerRule := fun v => do
  define v ["mx.sym.LRN(data = ", .use (← input v), ", alpha = ", floatText v "alpha", ", beta = ", floatText v "beta",
    ", knorm = ", floatText v "k", ", nsize = ", toString ((v.item.attr "size").intValue * 2 - 1), ", name = '",
    v.name, "')"]

def relu6 : LayerRule := fun v => do
  let relu ← activation "relu" v
  let clipped := v.outputName ++ "_clip"
  rename v clipped
  return relu ++ [.assign 1 (NetBridge.variableName clipped) ["mx.sym.clip(", .use v.variableName,
    ", a_min=0, a_max=6, name='", clipped, "')"], .plain 1 ""]

def activation? : String → Option LayerRule
  | "relu" => some (activation "relu")
  | "sigmoid" => some (activation "sigmoid")
  | "tanh" => some (activation "tanh")
  | "elu" => some (activation "elu")
  | _ => none

def namedRule : String → Option LayerRule
  | "UNKNOWN" => some fun v => do
    say v.name
    throw .kind
  | "FullyConnected" => some dense
  | "Conv" => some (conv .plain)
  | "DepthwiseConv" => some (conv .depthwise)
  | "ConvTranspose" => some (conv .transposed)
  | "DataInput" => some dataInput
  | "Activation" => some fun _ => throw .kind
  | "BatchNorm" => some batchNorm
  | "Pool" => some pool
  | "SoftmaxOutput" => some softmaxOutput
  | "Softmax" => some softmax
  | "Squeeze" | "Flatten" => some flatten
  | "Embedding" => some embedding
  | "Dropout" => some dropout
  | "Reshape" => some reshape
  | "Concat" => some concat
  | "Cast" => some cast
  | "Expand_dims" => some expandDims
  | "Pad" => some pad
  | "Add" => some (combined "broadcast_add")
  | "Mul" => some (combined "broadcast_mul")
  | "Sub" => some (combined "broadcast_sub")
  | "ReduceMean" => some reduceMean
  | "LRN" => some lrn
  | "Constant" => some fun _ => throw (.silent .unsupported)
  | "Relu6" => some relu6
  | _ => none

def rule (op : String) : Option LayerRule :=
  match activation? (Text.lower op) with
  | some r => some r
  | none => namedRule op

/-! ## The module -/

def feedSize (d : Int) (i : Nat) : Emit Int := do
  if d = -1 && i = 0 then
    say ("Detect input layer [" ++ v.name ++ "] using infer batch size, set it as default value [1]")
    return 1
  else
    if d = -1 then say "Warning: user should change input size manually"
    return d

def feed : Emit Unit := do
  let sizes ← (v.item.dims "shape").zipIdx.mapM fun (d, i) => feedSize v d i
  let channels ← Value.nth sizes (-1)
  let rest := sizes.dropLast
  let text := joined ", " (rest.take 1 ++ [channels] ++ rest.drop 1)
  modify fun s => { s with feeds := s.feeds.insert v.name text }

def sourced : Emit (Vertex Layer) := do
  if v.sources.isEmpty then
    modifyGraph fun g => g.modify v.name fun w => { w with sources := ["data"] }
    vertex v.name
  else return v

def layerLines : LayerRule := fun v => do
  let v ← sourced v
  let lines ← ruleOr "MXNet Emitter" rule v
  if v.item.op = "DataInput" then feed v
  return lines

def lastLines : Emit (List Line) := do
  let outs ← variableNames (← layers).outputs
  let ins ← variableNames (← takeInputs)
  return [.plain 1 "\n    # if a GPU is available, change mx.cpu() to mx.gpu()",
    .assign 1 "model" ([.text "mx.mod.Module(symbol = "] ++ operands ", " outs ++
      [.text ", context = mx.cpu(), data_names = ['"] ++ operands ", " ins ++ [.text "'])"]),
    .plain 1 "return model"]

def weightCode (feeds : Table String) (training : Bool) : String :=
  weightHead ++ "    model.bind(for_training = " ++ boolText training ++ ", data_shapes = [" ++
    Text.join ", " (feeds.entries.map fun e => "('" ++ e.1 ++ "', (" ++ e.2 ++ "))") ++ weightTail

def code (file : String) : Emit String := do
  let training := (← get).phase = "train"
  let body ← emitAll layerLines
  let last ← lastLines
  let s ← get
  let note := if s.loaded then "" else
    "# emitter does not detect any import weights, you may generate weights file manually\n"
  let main := "if __name__ == '__main__':\n    model = RefactorModel()\n" ++
    (if s.loaded then "    # remember to adjust params path\n    model = deploy_weight(model, '" ++
      file ++ "')\n" else "")
  return head ++ "\n" ++ render (allLines body) ++ render last ++ note ++
    weightCode s.feeds training ++
    (if training then train ++ main else predict ++ main ++ predictCall)

end MxNet

end NetBridge.Target
