import NetBridge.Prototxt.Arrays
import NetBridge.Network.Draft

/-!
# Nodes as layers of a network

Each kind of node becomes a layer of the interchange form, with the channels last. An inner product
becomes two layers, the first of which flattens its input.
-/

namespace NetBridge.Prototxt

def shapeValue (dims : List Int) : Except Fault Value := do
  return .shape (← dims.mapM int64)

def imageShape (s : Sizes) : Except Fault (List Int) := do
  if s.dims.length > 2 then return -1 :: s.dims.drop 2 ++ [← s.channels]
  else return [-1, ← Value.nth s.dims 1]

def Node.knownSizes (n : Node) : Except Fault Sizes := orFault .kind n.sizes

def outputAttr (n : Node) : Except Fault (String × Value) := do
  return ("_output_shapes", .list [← shapeValue (← imageShape (← n.knownSizes))])

def endPad (pad out out' : Int) : Int := pad + out - out'

def windowAttrs (n : Node) (input : Option Sizes) : Except Fault (List (String × Value)) := do
  let w ← n.window
  let strides : String × Value := ("strides", .ints [1, w.strideH, w.strideW, 1])
  if w.whole then
    let input ← known input
    let height ← input.height
    let width ← input.width
    return [("kernel_shape", .ints [1, height, width, 1]), ("pads", .ints (List.replicate 8 0)),
      strides, ← outputAttr n]
  else
    let kernel : List (String × Value) :=
      if n.kind = some "Pooling" then [("kernel_shape", .ints [1, w.kernelH, w.kernelW, 1])] else []
    let dilation ← n.dilation
    let own ← known n.sizes
    let height ← own.height
    let width ← own.width
    let input ← known input
    let inH ← input.height
    let inW ← input.width
    let h := reach dilation w.kernelH
    let v := reach dilation w.kernelW
    let (height', width') ←
      if n.kind = some "Deconvolution" then
        pure (spread inH h w.strideH w.padH, spread inW v w.strideW w.padW)
      else do
        require (w.strideH ≠ 0 && w.strideW ≠ 0) { cause := .zeroDivisor }
        pure ((inH + w.padH * 2 - h + 1).fdiv w.strideH, (inW + w.padW * 2 - v + 1).fdiv w.strideW)
    let pads := [0, w.padH, w.padW, 0, 0, endPad w.padH height height', endPad w.padW width width', 0]
    return kernel ++ [("pads", .ints pads), strides, ← outputAttr n]

abbrev NodeRule := Net → Nat → Except Fault (List DraftLayer)

def oneLayer (op : String) (attrs : List (String × Value)) (n : Node) :
    Except Fault (List DraftLayer) := do
  return [← DraftLayer.create op (attrs ++ [← outputAttr n])]

def bareLayer (op : String) : NodeRule := fun _ _ => do return [← DraftLayer.create op []]

def dataLayer : NodeRule := fun g i => do
  let n := g.node i
  let s ← n.knownSizes
  let shape ← shapeValue (-1 :: s.dims.drop 2 ++ [← s.channels])
  oneLayer "DataInput" [("shape", shape)] n

def convLayer (op : String) (transposed : Bool) : NodeRule := fun g i => do
  let n := g.node i
  let (p, _) ← g.onlyParent i
  let input := (g.node p).sizes
  let attrs ← windowAttrs n input
  let w ← n.window
  let l ← n.setting
  let channels ← (← known input).channels
  let ends := if transposed then [l.conv.outputs, channels] else [channels, l.conv.outputs]
  let dilations : List (String × Value) := match l.conv.dilation with
    | d :: _ => if d ≠ 1 then [("dilations", .ints [1, d, d, 1])] else []
    | [] => []
  let l ← DraftLayer.create op (attrs ++ [("kernel_shape", .ints ([w.kernelH, w.kernelW] ++ ends)),
    ("use_bias", .bool l.conv.bias)] ++ dilations ++ [("group", .int l.conv.group)])
  return [l]

def cropLayer : NodeRule := fun g i => do
  let n := g.node i
  let output ← outputAttr n
  let l ← n.setting
  let border : List (String × Value) := match l.cropOffsets with
    | [] => []
    | [a] => [("border", .ints [a, a, 0, 0])]
    | a :: b :: _ => [("border", .ints [a, b, 0, 0])]
  return [← DraftLayer.create "Crop" (output :: border)]

def poolLayer : NodeRule := fun g i => do
  let n := g.node i
  let (p, _) ← g.onlyParent i
  let attrs ← windowAttrs n (g.node p).sizes
  let l ← n.setting
  let method ← if l.pool.method = 0 then pure "MAX" else if l.pool.method = 1 then pure "AVG"
    else throw (.report .conversion "Unsupported pooling type.")
  return [← DraftLayer.create "Pool" (attrs ++ [("pooling_type", .text method)])]

def sampleSize (s : Sizes) : Except Fault Int :=
  (s.dims.drop 1).foldlM (fun n d => int64 (n * d)) 1

def denseLayers : NodeRule := fun g i => do
  let n := g.node i
  let l ← n.setting
  require (l.dense.axis == 1)
  let (p, _) ← g.onlyParent i
  let size ← sampleSize (← (g.node p).knownSizes)
  let flat ← DraftLayer.create "Flatten" [("_output_shapes", .list [.shape [-1, size]])]
  let dense ← DraftLayer.create "FullyConnected"
    [("use_bias", .bool l.dense.bias), ("units", .int l.dense.outputs)]
  return [flat, dense]

def lrnLayer : NodeRule := fun g i => do
  let n := g.node i
  let l ← n.setting
  require (l.lrn.size % 2 == 1)
  oneLayer "LRN" [("size", .int ((l.lrn.size + 1) / 2)), ("alpha", .float l.lrn.alpha),
    ("beta", .float l.lrn.beta), ("k", .float l.lrn.k)] n

def concatLayer : NodeRule := fun g i => do
  let n := g.node i
  let axis ← Value.nth [2, 3, 1, 0] (← n.setting).concatAxis
  oneLayer "Concat" [("axis", .int axis)] n

def dropoutLayer : NodeRule := fun g i => do
  let n := g.node i
  oneLayer "Dropout" [("keep_prob", .float (← n.setting).dropoutRate)] n

def batchNormLayer : NodeRule := fun g i => do
  let n := g.node i
  let count ← n.arrays.count
  let l ← n.setting
  oneLayer "BatchNorm" [("scale", .bool (count ≥ 3)), ("bias", .bool (count == 4)),
    ("epsilon", .float l.epsilon)] n

def eltwiseLayer : NodeRule := fun g i => do
  let code := (← (g.node i).setting).combination
  let op ← if code = 0 then pure "Mul" else if code = 1 then pure "Add"
    else if code = 2 then pure "Max"
    else throw (.report .conversion ("Unknown elementwise operation: " ++ toString code))
  return [← DraftLayer.create op []]

def reshapeLayer : NodeRule := fun g i => do
  let n := g.node i
  oneLayer "Reshape" [("shape", .ints (← n.knownSizes).dims)] n

def nodeRule? : String → Option NodeRule
  | "data" | "input" => some dataLayer
  | "convolution" => some (convLayer "Conv" false)
  | "deconvolution" => some (convLayer "ConvTranspose" true)
  | "crop" => some cropLayer
  | "relu" => some fun g i => oneLayer "Relu" [] (g.node i)
  | "pooling" => some poolLayer
  | "inner_product" => some denseLayers
  | "softmax" => some fun g i => oneLayer "Softmax" [] (g.node i)
  | "lrn" => some lrnLayer
  | "concat" => some concatLayer
  | "dropout" => some dropoutLayer
  | "batch_norm" => some batchNormLayer
  | "scale" => some fun _ _ => .error (.silent .unsupported)
  | "eltwise" => some eltwiseLayer
  | "abs_val" => some (bareLayer "Abs")
  | "tanh" => some (bareLayer "Tanh")
  | "sigmoid" => some (bareLayer "Sigmoid")
  | "reshape" => some reshapeLayer
  | "flatten" => some (bareLayer "Flatten")
  | _ => none

abbrev LayerNames := Table String

def placeLayers (n : Node) (inputs : List String) : List DraftLayer → List DraftLayer × String
  | [l] =>
    ([{ l with layer := { l.layer with name := n.name, inputs := l.layer.inputs ++ inputs },
               outputs := l.outputs ++ n.outputs }], n.name)
  | ls =>
    let part (k : Nat) : String := n.name ++ "_" ++ toString k
    let last := ls.length - 1
    (ls.zipIdx.map fun (l, k) =>
      { l with
        layer := { l.layer with
          name := part k
          inputs := l.layer.inputs ++ (if k = 0 then inputs else [part (k - 1)]) }
        outputs := l.outputs ++ (if k = last then n.outputs else [part (k + 1)]) },
     part last)

def mapNode (g : Net) (names : LayerNames) (i : Nat) : Except Fault (List DraftLayer × LayerNames) := do
  let n := g.node i
  let kind ← orFault .kind n.kind
  let handler := handlerName kind
  let rule ← orFault (.report .conversion ("No handler found for node kind: " ++ kind ++
    " (expected: map_" ++ handler ++ ")")) (nodeRule? handler)
  let ls ← rule g i
  let inputs ← (g.sources i).mapM fun p => names.get (g.node p).name .key
  let (ls, name) := placeLayers n inputs ls
  return (ls, names.insert n.name name)

def mapNodes (g : Net) : LayerNames → List Nat → Except Fault (List DraftLayer × LayerNames)
  | names, [] => .ok ([], names)
  | names, i :: rest => do
    let (ls, names) ← mapNode g names i
    let (more, names) ← mapNodes g names rest
    return (ls ++ more, names)

end NetBridge.Prototxt
