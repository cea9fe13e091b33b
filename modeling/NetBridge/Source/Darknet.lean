import NetBridge.Config.Layers
import NetBridge.Config.Weights
import NetBridge.Source.Builder

/-!
# Networks from configuration files

The layers of a configuration become layers of a network. The weights lie one after the other in a
file of single-precision numbers; what a layer takes is gone for the next.
-/

namespace NetBridge.Source.Darknet

open Config

abbrev Convert := Build Node (Reel Float)

def takeTensor (dims : List Int) : Convert Tensor := do
  Run.require (dims.all (0 ≤ ·)) .value
  let (xs, r) ← (← own).take (volume (dims.map Int.toNat))
  modifyOwn fun _ => r
  (Tensor.ofSingles xs).reshape dims

def takeVector (layer name : String) (size : Int) : Convert Unit := do
  setWeight layer name (.array (← takeTensor [size]))

def storedKernel (kernel : Value) : Except Fault (List Int) :=
  [-1, -2, 0, 1].mapM fun i => do (← kernel.index i).toInt

def takeKernel (layer : String) (dims : List Int) : Convert Unit := do
  setWeight layer "weights" (.array (← (← takeTensor dims).transpose [2, 3, 1, 0]))

def storedSize : Value → Except Fault Int
  | .none => .ok (-1)
  | v => int64Of v

def storedShape (shape : Value) : Except Fault (List Int) := do (← shape.elements).mapM storedSize

variable (v : Vertex Node)

def convertAs (op : String) : Convert Nat := do
  let k ← newLayer
  setName k v.name
  setOp k op
  match v.item.props.find? "_output_shape" with
  | some shape => addShape k "_output_shape" (← storedShape shape)
  | none => pure ()
  match v.item.props.find? "shape" with
  | some shape => (← shape.elements).forM (addSize k "shape")
  | none => pure ()
  readSources v k
  return k

def firstSource : Convert (Vertex Node) := do
  vertex (← orFault .position v.sources.head?)

def spatial (edge middle : Value) : List Value := [edge, middle, middle, edge]

def convolution : Convert Unit := do
  let k ← convertAs v "Conv"
  let _ ← firstSource v
  let kernel := v.item.prop "kernel"
  let padding := if (v.item.prop "pad").isSet then
      let pads := spatial (.int 0) (v.item.prop "padding")
      [("auto_pad", Value.text "SAME"), ("pads", .list (pads ++ pads))]
    else [("auto_pad", .text "VALID")]
  let biased := (v.item.prop "bias_term").same (.text "true")
  if biased then
    let dims ← storedKernel kernel
    Run.require (dims.all (0 ≤ ·)) .value
    takeVector v.name "bias" (dims.headD 0)
    takeKernel v.name dims
  assign k ([("strides", .list (spatial (.int 1) (v.item.prop "stride"))), ("kernel_shape", kernel)] ++
    padding ++ [("use_bias", .bool biased)])

def normalisation : Convert Unit := do
  let k ← convertAs v "BatchNorm"
  for name in ["use_global_stats", "bias", "scale"] do
    setFlag k name (v.item.prop "use_global_stats")
  let conv ← firstSource v
  let dims ← storedKernel (conv.item.prop "kernel")
  Run.require (dims.all (0 ≤ ·)) .value
  let channels ← (← conv.item.outputShape.index (-1)).toInt
  for name in ["bias", "scale", "mean", "var"] do
    takeVector v.name name channels
  takeKernel conv.name dims

def pooling : Convert Unit := do
  let k ← convertAs v "Pool"
  let kind := v.item.prop "pool"
  if kind.same (.text "MAX") then
    let pads := spatial (.int 0) (v.item.prop "padding")
    addInts k "pads" (pads ++ pads)
    assign k [("kernel_shape", .list (spatial (.int 1) (v.item.prop "kernel_size"))),
      ("strides", .list (spatial (.int 1) (v.item.prop "stride"))), ("pooling_type", kind)]
  else
    let shape ← (← firstSource v).item.outputShape.elements
    putInts k "pads" (List.replicate 8 0)
    assign k [("kernel_shape", .list ([.int 1] ++ (shape.take 2).drop 1 ++ [.int 1])),
      ("strides", .ints [1, 1, 1, 1]), ("pooling_type", kind)]

def leakyActivation : Convert Unit := do
  let slope ← (v.item.prop "negative_slope").toText
  let alpha ← orFault .value (Decimal.readFloat? slope)
  let k ← convertAs v "LeakyRelu"
  assign k [("alpha", .float alpha)]

def detection : Convert Unit := do
  let k ← convertAs v "yolo"
  assign k (["truth_thresh", "random", "ignore_thresh", "jitter", "num", "classes", "anchors",
    "mask"].map fun name => (name, v.item.prop name))

def rule : Convert Unit := do
  match v.item.type with
  | "Conv" => convolution v
  | "BatchNorm" => normalisation v
  | "Pooling" => pooling v
  | "leakyReLU" => leakyActivation v
  | "yolo" => detection v
  | "ReLU" => discard (convertAs v "Relu")
  | "Concat" =>
    let k ← convertAs v "Concat"
    setInt k "axis" (v.item.prop "axis")
  | "upsample" =>
    let k ← convertAs v "upsample"
    assign k [("strides", v.item.prop "strides")]
  | "InnerProduct" => throw .condition
  | type => discard (convertAs v type)

def convert : Convert Unit := do
  (← get).graph.vertices.keys.forM fun n => do rule (← vertex n)

def start (text : String) (reel : Reel Float) : Except Fault (Builder Node (Reel Float)) := do
  let (g, log) := (← planOf (← Config.parse text)).wired
  return { graph := g, log := log, loaded := true, own := reel }

def wholePart : Value → Value
  | .float x => .int (Scalar.truncate x)
  | .list vs => .list (vs.map fun
    | .float x => .int (Scalar.truncate x)
    | v => v)
  | v => v

def wholeSizes (g : Graph Node) : Graph Node :=
  let cut (n : Node) : Node :=
    { n with props := n.props.map fun k v => if k = "_output_shape" || k = "padding" then wholePart v else v }
  { g with vertices := g.vertices.map fun _ v => { v with item := cut v.item } }

end NetBridge.Source.Darknet
