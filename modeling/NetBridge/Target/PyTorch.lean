import NetBridge.Code.Emitter

/-!
# PyTorch code

The generated module sets its layers up in one function and runs them in another. A layer with
weights becomes a line in each; other layers become a line of the second.
-/

namespace NetBridge.Target

open Code

/-! ## Fixed parts of the code -/

namespace PyTorchText

def head : String := block ([
  "import numpy as np",
  "import torch",
  "import torch.nn as nn",
  "import torch.nn.functional as F",
  "",
  "__weights_dict = dict()",
  "",
  "def load_weights(weight_file):"] ++ loadGiven ++ [
  "    return weights_dict",
  "",
  "class KitModel(nn.Module):",
  ""])

def setupHead : String := block [
  "",
  "    def __init__(self, weight_file):",
  "        super(KitModel, self).__init__()",
  "        global __weights_dict",
  "        __weights_dict = load_weights(weight_file)",
  ""]

def helperConv : String := block [
  "",
  "    @staticmethod",
  "    def __conv(dim, name, **kwargs):",
  "        if   dim == 1:  layer = nn.Conv1d(**kwargs)",
  "        elif dim == 2:  layer = nn.Conv2d(**kwargs)",
  "        elif dim == 3:  layer = nn.Conv3d(**kwargs)",
  "        else:           raise NotImplementedError()",
  "",
  "        layer.state_dict()['weight'].copy_(torch.from_numpy(__weights_dict[name]['weights']))",
  "        if 'bias' in __weights_dict[name]:",
  "            layer.state_dict()['bias'].copy_(torch.from_numpy(__weights_dict[name]['bias']))",
  "        return layer"]

def helperFullyConnected : String := block [
  "",
  "    @staticmethod",
  "    def __dense(name, **kwargs):",
  "        layer = nn.Linear(**kwargs)",
  "        layer.state_dict()['weight'].copy_(torch.from_numpy(__weights_dict[name]['weights']))",
  "        if 'bias' in __weights_dict[name]:",
  "            layer.state_dict()['bias'].copy_(torch.from_numpy(__weights_dict[name]['bias']))",
  "        return layer"]

def helperBatchNorm : String := block [
  "",
  "    @staticmethod",
  "    def __batch_normalization(dim, name, **kwargs):",
  "        if   dim == 1:  layer = nn.BatchNorm1d(**kwargs)",
  "        elif dim == 2:  layer = nn.BatchNorm2d(**kwargs)",
  "        elif dim == 3:  layer = nn.BatchNorm3d(**kwargs)",
  "        else:           raise NotImplementedError()",
  "",
  "        if 'scale' in __weights_dict[name]:",
  "            layer.state_dict()['weight'].copy_(torch.from_numpy(__weights_dict[name]['scale']))",
  "        else:",
  "            layer.weight.data.fill_(1)",
  "",
  "        if 'bias' in __weights_dict[name]:",
  "            layer.state_dict()['bias'].copy_(torch.from_numpy(__weights_dict[name]['bias']))",
  "        else:",
  "            layer.bias.data.fill_(0)",
  "",
  "        layer.state_dict()['running_mean'].copy_(torch.from_numpy(__weights_dict[name]['mean']))",
  "        layer.state_dict()['running_var'].copy_(torch.from_numpy(__weights_dict[name]['var']))",
  "        return layer"]

def helperLRN : String := block [
  "",
  "    class LRN(nn.Module):",
  "        def __init__(self, size=1, alpha=1.0, beta=0.75, ACROSS_CHANNELS=False):",
  "            super(KitModel.LRN, self).__init__()",
  "            self.ACROSS_CHANNELS = ACROSS_CHANNELS",
  "            if self.ACROSS_CHANNELS:",
  "                self.average=nn.AvgPool3d(kernel_size=(size, 1, 1),",
  "                        stride=1,",
  "                        padding=(int((size-1.0)/2), 0, 0))",
  "            else:",
  "                self.average=nn.AvgPool2d(kernel_size=size,",
  "                        stride=1,",
  "                        padding=int((size-1.0)/2))",
  "            self.alpha = alpha",
  "            self.beta = beta",
  "",
  "        def forward(self, x):",
  "            if self.ACROSS_CHANNELS:",
  "                div = x.pow(2).unsqueeze(1)",
  "                div = self.average(div).squeeze(1)",
  "                div = div.mul(self.alpha).add(1.0).pow(self.beta)",
  "            else:",
  "                div = x.pow(2)",
  "                div = self.average(div)",
  "                div = div.mul(self.alpha).add(1.0).pow(self.beta)",
  "            x = x.div(div)",
  "            return x"]

end PyTorchText

/-! ## Layers -/

namespace PyTorch

open PyTorchText

def setUp (l : Line) : Emit Unit := modify fun s => { s with setup := s.setup ++ [l] }

def spatialPads (pads : List Int) : Except Fault (List Int) := do
  let ps ← Padding.pairs pads
  return (Value.inner ps).reverse.flatMap fun p => [p.1, p.2]

def layerPads (v : Vertex Layer) : Emit (List Int) := do
  spatialPads (← Padding.ofValue (← v.item.get "pads"))

def padded (v : Vertex Layer) : Emit (List Line × String) := do
  let x ← input v
  if isText (← v.item.get "auto_pad") "VALID" then return ([], x)
  else if ← Padding.isNoneValue (← v.item.get "pads") then return ([], x)
  else
    let pads ← layerPads v
    let y := v.variableName ++ "_pad"
    return ([.assign 2 y ["F.pad(", .use x, ", ", intTuple pads, ")"]], y)

def conv : LayerRule := fun v => do
  need v.item.op
  let strides ← ints v "strides"
  let dim := (strides.length : Int) - 2
  let kernel ← ints v "kernel_shape"
  let inChannels ← Value.nth kernel (-2)
  let outChannels ← Value.nth kernel (-1)
  let group ← shown v "group" (.int 1)
  let bias ← shown v "use_bias"
  let x := v.variableName
  setUp (.plain 2 ("self." ++ x ++ " = self.__conv(" ++ toString dim ++ ", name='" ++ v.name ++
    "', in_channels=" ++ toString inChannels ++ ", out_channels=" ++ toString outChannels ++
    ", kernel_size=" ++ intTuple (Value.slice kernel none (some (-2))) ++ ", stride=" ++
    intTuple (Value.inner strides) ++ ", groups=" ++ group ++ ", bias=" ++ bias ++ ")"))
  let (pre, y) ← padded v
  if (← get).loaded then kernelToFront v.name dim
  return pre ++ [.assign 2 x ["self.", x, "(", .use y, ")"]]

def pool : LayerRule := fun v => do
  let dim := ((← (← v.item.get "strides").length) : Int) - 2
  let kind ← v.item.get "pooling_type"
  let name ←
    if isText kind "MAX" then pure ("max_pool" ++ toString dim ++ "d")
    else if isText kind "AVG" then pure ("avg_pool" ++ toString dim ++ "d")
    else throw (.silent .value)
  if (v.item.attr "global_pooling").flagValue then
    let x ← input v
    define v ["F.", name, "(input = ", .use x, ", kernel_size = ", .use x, ".size()[2:])"] 2
  else
    let dilations ← (← v.item.get "dilations" (.list [])).toInts
    Run.require (dilations.all (· == 1))
    let kernel ← ints v "kernel_shape"
    let strides ← ints v "strides"
    let pads ← ints v "pads"
    let x ← input v
    define v ["F.", name, "(", .use x, ", kernel_size=", intTuple (Value.inner kernel), ", stride=",
      intTuple (Value.inner strides), ", padding=", intTuple (Value.slice pads (some 1) (some dim)), ", ceil_mode=",
      boolText (Padding.isCeiling pads), ")"] 2

def dataInput : LayerRule := fun v => do
  rename v "x"
  return []

def dropout : LayerRule := fun v => do
  define v ["F.dropout(input = ", .use (← input v), ", p = ", floatText v "keep_prob",
    ", training = self.training, inplace = True)"] 2

def viewed (x : String) : List Piece := [.use x, ".view(", .use x, ".size(0), -1)"]

def dense : LayerRule := fun v => do
  need v.item.op
  let above ← parent v.name
  let features := ((← outputShape above).drop 1).foldl (· * ·) 1
  let x := v.variableName
  setUp (.plain 2 ("self." ++ x ++ " = self.__dense(name = '" ++ v.name ++ "', in_features = " ++
    toString features ++ ", out_features = " ++ intText v "units" ++
    ", bias = " ++ flagText v "use_bias" ++ ")"))
  let y ← input v
  let shape ← outputShapeValue above
  let arg : List Piece := if shape.length > 2 then viewed y else [.use y]
  if (← get).loaded then setWeight v.name "weights" (.array (← denseMatrix v))
  return [.assign 2 x ((["self.", x, "("] : List Piece) ++ arg ++ [.text ")"])]

def flatten : LayerRule := fun v => do define v (viewed (← input v)) 2

def unary (function : String) : LayerRule := fun v => do
  define v [function, "(", .use (← input v), ")"] 2

def combined (operator : String) : LayerRule := fun v => do
  define v (operands operator (← inputs v)) 2

def sigmoid : LayerRule := fun v => do
  let _ ← input v
  return []

def constant : LayerRule := fun v => do
  setUp { indent := 2, lead := "self.", target := some v.variableName, body :=
    ["torch.autograd.Variable(torch.Tensor(__weights_dict['", v.name,
      "']['value']), requires_grad=False)"] }
  rename v ("self." ++ v.variableName)
  return []

def concat : LayerRule := fun v => do
  let axis ← v.item.get "axis"
  let rank := (← outputShapeValue v).length
  let axis := Axes.firstAxis rank (← axis.toInt)
  define v ([.text "torch.cat(("] ++ operands ", " (← inputs v) ++ (["), ", toString axis, ")"] : List Piece)) 2

def batchNorm : LayerRule := fun v => do
  need v.item.op
  let shape ← outputShape v
  let features ← Value.nth shape (-1)
  let x := v.variableName
  setUp (.plain 2 ("self." ++ x ++ " = self.__batch_normalization(" ++
    toString ((shape.length : Int) - 2) ++ ", '" ++ v.name ++ "', num_features=" ++
    toString features ++ ", eps=" ++ floatText v "epsilon" ++
    ", momentum=" ++ floatText v "momentum" ++ ")"))
  return [.assign 2 x ["self.", x, "(", .use (← input v), ")"]]

def pad : LayerRule := fun v => do
  let kind ← v.item.get "mode"
  let mode ←
    if isText kind "constant" then pure "mode = 'constant', value = 0"
    else if isText kind "reflect" then pure "mode = 'reflect'"
    else if isText kind "SYMMETRIC" then pure "mode = 'replicate'"
    else throw .condition
  let pads ← layerPads v
  let x ← input v
  define v ["F.pad(", .use x, ", ", intTuple pads, ", ", mode, ")"] 2

def means (result keep : String) : String → List Int → List Line
  | _, [] => []
  | x, a :: as =>
    .assign 2 result ["torch.mean(", .use x, ", ", toString a, ", ", keep, ")"] ::
      means result keep result as

def reduceMean : LayerRule := fun v => do
  let axes ← ints v "axes"
  let axes ← if axes.isEmpty then pure []
    else do
      let rank := (← outputShapeValue v).length
      pure (axes.map (Axes.firstAxis rank))
  let x ← input v
  let keep ← if axes.isEmpty then pure "" else shown v "keepdims"
  return means v.variableName keep x (axes.mergeSort fun a b => b ≤ a)

def lrn : LayerRule := fun v => do
  need v.item.op
  define v ["self.LRN(size = ", toString ((v.item.attr "size").intValue * 2 - 1), ", alpha = ", floatText v "alpha",
    ", beta = ", floatText v "beta", ")(", .use (← input v), ")"] 2

def rule : String → Option LayerRule
  | "Conv" => some conv
  | "Pool" => some pool
  | "UNKNOWN" => some unknown
  | "DataInput" => some dataInput
  | "Dropout" => some dropout
  | "FullyConnected" => some dense
  | "Flatten" => some flatten
  | "Reshape" | "Tanh" | "Embedding" | "LSTM" | "GRU" => some fun _ => throw (.silent .unsupported)
  | "RNNs" => some fun _ => throw .kind
  | "Relu" => some (unary "F.relu")
  | "Softmax" => some (unary "F.softmax")
  | "Sigmoid" => some sigmoid
  | "Add" => some (combined " + ")
  | "Sub" => some (combined " - ")
  | "Mul" => some (combined " * ")
  | "Constant" => some constant
  | "Concat" => some concat
  | "BatchNorm" => some batchNorm
  | "Squeeze" => some (unary "torch.squeeze")
  | "Pad" => some pad
  | "ReduceMean" => some reduceMean
  | "LRN" => some lrn
  | _ => none

def helper : String → Option String
  | "Conv" => some helperConv
  | "FullyConnected" => some helperFullyConnected
  | "BatchNorm" => some helperBatchNorm
  | "LRN" => some helperLRN
  | _ => none

def returnLine : Emit Line := do
  let outs ← variableNames (← layers).outputs
  return { indent := 2, body := [.text "return "] ++ operands "," outs }

def code : Emit String := do
  Run.require (← get).loaded { cause := .unassigned }
  let body ← emitAll (ruleOr "Pytorch Emitter" rule)
  let last ← returnLine
  let helpers ← helperText helper
  return head ++ "\n" ++ "    " ++ setupHead ++ "\n" ++ render (← get).setup ++ "\n" ++
    "    def forward(self, x):\n" ++ render (allLines body) ++ last.render ++ "\n" ++ helpers

end PyTorch

end NetBridge.Target
