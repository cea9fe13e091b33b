import NetBridge.Code.Emitter

/-!
# Caffe code

Every layer becomes a field of the net that the code builds. Arrays are laid out with the channels
first and filed under the layer's variable.
-/

namespace NetBridge.Target

open Code

/-! ## Fixed parts of the code -/

namespace CaffeText

def head : String := block ([
  "from __future__ import print_function",
  "import numpy as np",
  "import sys, argparse",
  "import caffe",
  "from caffe import layers as L",
  "from caffe import params as P",
  "from caffe import to_proto",
  "from six import text_type as _text_type",
  "",
  "",
  "__weights_dict = dict()",
  "",
  "def load_weights(weight_file):"] ++ loadGiven ++ [
  "    return weights_dict",
  "",
  "",
  "def KitModel(weight_file = None):",
  "    n = caffe.NetSpec()",
  ""])

def tail : String := block [
  "    return n",
  "",
  "def make_net(prototxt):",
  "    n = KitModel()",
  "    with open(prototxt, 'w') as fpb:",
  "        print(n.to_proto(), file=fpb)",
  "",
  "def gen_weight(weight_file, model, prototxt):",
  "    global __weights_dict",
  "    __weights_dict = load_weights(weight_file)",
  "",
  "    net = caffe.Net(prototxt, caffe.TRAIN)",
  "",
  "    for key in __weights_dict:",
  "        if 'weights' in __weights_dict[key]:",
  "            net.params[key][0].data.flat = __weights_dict[key]['weights']",
  "        elif 'mean' in __weights_dict[key]:",
  "            net.params[key][0].data.flat = __weights_dict[key]['mean']",
  "            net.params[key][1].data.flat = __weights_dict[key]['var']",
  "            if 'scale' in __weights_dict[key]:",
  "                net.params[key][2].data.flat = __weights_dict[key]['scale']",
  "        elif 'scale' in __weights_dict[key]:",
  "            net.params[key][0].data.flat = __weights_dict[key]['scale']",
  "        if 'bias' in __weights_dict[key]:",
  "            net.params[key][1].data.flat = __weights_dict[key]['bias']",
  "        if 'gamma' in __weights_dict[key]: # used for prelu, not sure if other layers use this too",
  "            net.params[key][0].data.flat = __weights_dict[key]['gamma']",
  "    net.save(model)",
  "    return net",
  "",
  "",
  "",
  "if __name__=='__main__':",
  "    parser = argparse.ArgumentParser(description='Generate caffe model and prototxt')",
  "    parser.add_argument('--weight_file', '-w', type=_text_type, default='IR weight file')",
  "    parser.add_argument('--prototxt', '-p', type=_text_type, default='caffe_converted.prototxt')",
  "    parser.add_argument('--model', '-m', type=_text_type, default='caffe_converted.caffemodel')",
  "    args = parser.parse_args()",
  "    # For some reason argparser gives us unicode, so we need to conver to str first",
  "    make_net(str(args.prototxt))",
  "    gen_weight(str(args.weight_file), str(args.model), str(args.prototxt))",
  "",
  ""]

end CaffeText

/-! ## Layers -/

namespace Caffe

open CaffeText

def field (name : String) (body : List Piece) : Line :=
  { indent := 1, lead := "n.", target := some name, body := body }

def arguments : List String → List Piece
  | [] => []
  | xs => .text "n." :: operands ", n." xs

def skipped : LayerRule := fun v => do
  skip v
  return []

def conv : LayerRule := fun v => do
  let above ← parent v.name
  let padded := if above.item.op = "Pad" then above else v
  let height ← (← padded.item.get "pads").index 1
  let width ← (← padded.item.get "pads").index 2
  let x ← input v
  let kernel ← (← v.item.get "kernel_shape").index 0
  let stride ← (← v.item.get "strides").index 1
  let filters ← (← v.item.get "kernel_shape").index (-1)
  let group ← shown v "group" (.int 1)
  let bias ← shown v "use_bias" (.bool false)
  let dim := ((← (← v.item.get "strides").length) : Int) - 2
  if (← get).loaded then
    kernelToFront v.name dim
    moveWeights v.name v.variableName
  return [field v.variableName ["L.Convolution(n.", .use x, ", kernel_size=", kernel.display,
    ", stride=", stride.display, ", num_output=", filters.display, ", pad_h=", height.display,
    ", pad_w=", width.display, ", group=", group, ", bias_term=", bias, ", ntop=1)"]]

def poolingNumber (kind : Value) : Except Fault String :=
  if isText kind "MAX" then .ok "0"
  else if isText kind "AVG" then .ok "1"
  else if isText kind "STOCHASTIC" then .ok "2"
  else .error (.silent .value)

def pool : LayerRule := fun v => do
  let kind ← poolingNumber (← v.item.get "pooling_type")
  let x ← input v
  if (v.item.attr "global_pooling").flagValue then
    let stride ← (← v.item.get "strides").index 1
    return [field v.variableName ["L.Pooling(n.", .use x, ", pool=", kind, ", stride=",
      stride.display, ", global_pooling=True, ntop=1)"]]
  else
    let kernel ← (← v.item.get "kernel_shape").index 1
    let height ← (← v.item.get "pads").index 1
    let width ← (← v.item.get "pads").index 2
    let stride ← (← v.item.get "strides").index 1
    return [field v.variableName ["L.Pooling(n.", .use x, ", pool=", kind, ", kernel_size=",
      kernel.display, ", pad_h=", height.display, ", pad_w=", width.display, ", stride=",
      stride.display, ", ntop=1)"]]

def dataInput : LayerRule := fun v => do
  match ← v.item.get "shape" with
  | .shape ds =>
    let sizes := ds.map fun d => if d > 0 then d else 1
    let batch ← Value.nth sizes 0
    let channels ← Value.nth sizes (-1)
    return [field v.variableName ["L.Input(shape=[dict(dim=",
      intList ([batch, channels] ++ Value.inner sizes), ")], ntop=1)"]]
  | _ => throw .property

def dropout : LayerRule := fun v => do
  let x ← input v
  let rate ← complement (← v.item.get "keep_prob")
  return [field v.variableName ["L.Dropout(n.", .use x, ", dropout_ratio=", rate.display,
    " , in_place=True, ntop=1)"]]

def dense : LayerRule := fun v => do
  let x ← input v
  let bias ← shown v "use_bias" (.bool false)
  if (← get).loaded then
    setWeight v.name "weights" (.array (← denseMatrix v))
    moveWeights v.name v.variableName
  return [field v.variableName ["L.InnerProduct(n.", .use x, ", num_output=",
    toString (v.item.attr "units").intValue, ", bias_term=", bias, ", ntop=1)"]]

def splitScale (layer scaled : String) : Emit Unit := do
  modify fun s => { s with weights := s.weights.insert scaled ∅ }
  let own ← layerWeights layer
  match own.find? "scale" with
  | some t =>
    setWeight scaled "scale" t
    setWeight layer "scale" (.int 1)
  | none => pure ()
  let bias ← own.get "bias" Fault.key
  setWeight scaled "bias" bias
  modify fun s => { s with weights := s.weights.modify layer fun w => w.erase "bias" }

def batchNorm : LayerRule := fun v => do
  let x ← input v
  let epsilon ← shown v "epsilon"
  let fixed := boolText ((← get).phase = "test")
  let y := v.variableName
  let scaled := y ++ "_scale"
  let bias ← shown v "bias" (.bool false)
  if (← get).loaded then
    splitScale v.name scaled
    moveWeights v.name y
  rename v (v.name ++ "_scale")
  return [
    field y ["L.BatchNorm(n.", .use x, ", eps=", epsilon, ", use_global_stats=", fixed, ", ntop=1)"],
    field scaled ["L.Scale(n.", .use y, ", bias_term=", bias, ", in_place=True, ntop=1)"]]

def lrn : LayerRule := fun v => do
  let x ← input v
  let size ← doubledLess (← v.item.get "size")
  let alpha ← shown v "alpha"
  let beta ← shown v "beta"
  let k ← shown v "k"
  return [field v.variableName ["L.LRN(n.", .use x, ", local_size=", size.display, ", alpha=", alpha,
    ", beta=", beta, ", k=", k, ")"]]

def add : LayerRule := fun v => do
  let xs ← inputs v
  return [field v.variableName ([.text "L.Eltwise("] ++ arguments xs ++
    [.text ", operation=1, ntop=1)"])]

def imageAxis (axis : Value) : Except Fault String :=
  match axis with
  | .int 2 => .ok "0"
  | .int 3 => .ok "1"
  | .int 1 | .bool true => .ok "2"
  | .int 0 | .bool false => .ok "3"
  | .float x =>
    if x == 2 then .ok "0"
    else if x == 3 then .ok "1"
    else if x == 1 then .ok "2"
    else if x == 0 then .ok "3"
    else .error .value
  | _ => .error .value

def concat : LayerRule := fun v => do
  let axis ← imageAxis (← v.item.get "axis")
  let xs ← inputs v
  return [field v.variableName ([.text "L.Concat("] ++ arguments xs ++
    ([", axis=", axis, ")"] : List Piece))]

def inPlace (function : String) : LayerRule := fun v => do
  return [field v.variableName ["L.", function, "(n.", .use (← input v), ", in_place=True, ntop=1)"]]

def softmax : LayerRule := fun v => do
  return [field v.variableName ["L.Softmax(n.", .use (← input v), ", ntop=1)"]]

def reduction (operation : String) : LayerRule := fun v => do
  let axes ← ints v "axes"
  Run.require (match axes with
    | [a] => a == 2
    | [a, b] => a == 1 && b == 2
    | _ => true)
  return [field v.variableName ["L.Reduction(n.", .use (← input v), ", operation=", operation,
    " , axis=", toString axes.length, " ,ntop=1)"]]

def rule : String → Option LayerRule
  | "Conv" => some conv
  | "Pool" => some pool
  | "UNKNOWN" => some unknown
  | "DataInput" => some dataInput
  | "Dropout" => some dropout
  | "FullyConnected" => some dense
  | "BatchNorm" => some batchNorm
  | "LRN" => some lrn
  | "Add" => some add
  | "Flatten" | "Squeeze" | "Pad" => some skipped
  | "Concat" => some concat
  | "Relu" => some (inPlace "ReLU")
  | "PRelu" => some (inPlace "PReLU")
  | "Softmax" => some softmax
  | "ReduceMean" => some (reduction "4")
  | "ReduceSum" => some (reduction "1")
  | _ => none

def code : Emit String := do
  let body ← emitAll (ruleOr "CaffeEmitter" rule)
  return head ++ "\n" ++ render (allLines body) ++ "\n" ++ tail ++ "\n"

end Caffe

end NetBridge.Target
