import NetBridge.Config.Basic
import NetBridge.Graph.Basic

/-!
# The layers of a configuration

Every block becomes one layer or a few in a row, and reads what the last block gave or the blocks that
it names by number. `layOut` gives what a block contributes, and `graphOf` connects the layers of all
blocks. A block can be asked whether it has a key, and sizes are divided with a fraction.
-/

namespace NetBridge.Config

structure Node where
  name : String
  type : String
  inputs : List String
  props : Table Value
  deriving Inhabited

def Node.prop (n : Node) (key : String) : Value := n.props.findD key .none

def Node.outputShape (n : Node) : Value := n.prop "_output_shape"

structure Plan where
  nodes : Table Node := ∅
  outputs : List (Nat × String) := []
  feed : Option String := none
  norm : Option String := none

structure Laid where
  nodes : List Node := []
  output : Option String := none
  feed : Option String := none
  norm : Option String := none

namespace Plan

def source (p : Plan) : Except Fault String := orFault { cause := .unassigned } p.feed

def outputOf (p : Plan) (i : Int) : Except Fault String :=
  orFault .key ((p.outputs.find? fun e => (e.1 : Int) == i).map (·.2))

def shapeOf (p : Plan) (name : String) : Except Fault Value := do
  return (← p.nodes.get name .key).outputShape

def extend (p : Plan) (i : Nat) (l : Laid) : Plan where
  nodes := l.nodes.foldl (fun t n => t.insert n.name n) p.nodes
  outputs := p.outputs ++ (l.output.map fun n => (i, n)).toList
  feed := l.feed.or p.feed
  norm := l.norm.or p.norm

end Plan

namespace Block

def layerName (b : Block) (i : Nat) (kind : String) : String :=
  match b.settings.find? "name" with
  | some s => s.text
  | none => "layer" ++ toString i ++ "-" ++ kind

def followerName (b : Block) (i : Nat) (kind : String) : String :=
  match b.settings.find? "name" with
  | some s => s.text ++ "-" ++ kind
  | none => "layer" ++ toString i ++ "-" ++ kind

def holds (b : Block) (key value : String) : Except Fault Bool := do
  return (← b.get key) = .given value

def fraction (b : Block) (key : String) : Except Fault Value := do
  return .float (← orFault .value (Decimal.readFloat? (← b.get key).text))

end Block

def leak : String × Value := ("negative_slope", .text "0.1")

def wholeProp (key : String) (n : Int) : String × Value := (key, .int n)

def shapeProp (v : Value) : String × Value := ("_output_shape", v)

def sizeAt (shape : Value) (i : Int) : Except Fault Scalar := do (← shape.index i).toScalar

def withChannels (shape channels : Value) : Except Fault Value := do
  return .list ((← shape.elements).dropLast ++ [channels])

def input (b : Block) : Except Fault Laid := do
  let texts ← ["height", "width", "channels"].mapM b.get
  let sizes := Value.ints (-1 :: (← texts.mapM Setting.whole))
  let name := "dk_Input"
  let node : Node := {
    name, type := "DataInput", inputs := ["data"], props := ⟨[("shape", sizes), shapeProp sizes]⟩ }
  return { nodes := [node], output := some name, feed := some name }

variable (p : Plan) (i : Nat) (b : Block)

def convolution : Except Fault Laid := do
  let source ← p.source
  let inputShape ← p.shapeOf source
  let width ← sizeAt inputShape 1
  let height ← sizeAt inputShape 2
  let channels ← inputShape.index 3
  let filters ← b.whole "filters"
  let size ← b.whole "size"
  let pad ← b.whole "pad"
  let padded ← b.holds "pad" "1"
  let stride ← b.whole "stride"
  let normed ← b.holds "batch_normalize" "1"
  let padding ← if padded then Scalar.quotient (.int size) 2 else throw .key
  let outWidth ← Listing.slide width padding (.int size) (.int stride)
  let outHeight ← Listing.slide height padding (.int size) (.int stride)
  let outShape := Value.list [.int (-1), .ofScalar outWidth, .ofScalar outHeight, .int filters]
  let conv : Node := {
    name := b.layerName i "conv", type := "Conv", inputs := [source]
    props := ⟨[wholeProp "num_output" filters, wholeProp "kernel_size" size,
      ("kernel", .list [.int size, .int size, channels, .int filters]), wholeProp "pad" pad,
      ("padding", .ofScalar padding), wholeProp "stride" stride,
      ("bias_term", .text (if normed then "false" else "true")), shapeProp outShape]⟩ }
  let norm : Node := {
    name := b.followerName i "bn", type := "BatchNorm", inputs := [conv.name]
    props := ⟨[("use_global_stats", .bool true), shapeProp outShape, ("bias_term", .bool true),
      ("scale", .bool true)]⟩ }
  let main := if normed then [conv, norm] else [conv]
  let mainName := if normed then norm.name else conv.name
  let lastNorm := if normed then some norm.name else none
  let activation ← b.get "activation"
  if activation = .given "linear" then
    let output ← orFault { cause := .unassigned } (lastNorm.or p.norm)
    return { nodes := main, output := some output, feed := some mainName, norm := lastNorm }
  let leaky := activation = .given "leaky"
  let shape := shapeProp (if normed then outShape else inputShape)
  let act : Node := {
    name := b.followerName i "act", type := if leaky then "leakyReLU" else "ReLU"
    inputs := [mainName], props := ⟨if leaky then [leak, shape] else [shape]⟩ }
  return { nodes := main ++ [act], output := some act.name, feed := some act.name, norm := lastNorm }

def single (n : Node) : Laid := { nodes := [n], output := some n.name, feed := some n.name }

def maxPooling : Except Fault Laid := do
  let source ← p.source
  let size ← b.whole "size"
  let stride ← b.whole "stride"
  let padded ← match b.settings.find? "pad" with
    | some s => do pure ((← s.whole) == 1)
    | none => pure false
  let padding ← if padded then Scalar.quotient (.int (size - 1)) 2 else pure 0
  let inputShape ← p.shapeOf source
  let width ← sizeAt inputShape 1
  let height ← sizeAt inputShape 2
  let outWidth ← (width + 2 * padding).quotient (.int stride)
  let outHeight ← (height + 2 * padding).quotient (.int stride)
  let outShape := Value.list
    [.int (-1), .ofScalar outWidth, .ofScalar outHeight, ← inputShape.index (-1)]
  return single {
    name := b.layerName i "maxpool", type := "Pooling", inputs := [source]
    props := ⟨[wholeProp "kernel_size" size, wholeProp "stride" stride, ("pool", .text "MAX"),
      ("padding", .ofScalar padding), shapeProp outShape]⟩ }

def meanPooling : Except Fault Laid := do
  let source ← p.source
  let channels ← (← p.shapeOf source).index (-1)
  return single {
    name := b.layerName i "avgpool", type := "Pooling", inputs := [source]
    props := ⟨[shapeProp (.list [.int (-1), .int 1, .int 1, channels]), ("pool", .text "AVG")]⟩ }

/-- The block that an entry of a concatenation names: positive numbers count from the first block
behind the network, others from the current one. -/
def routed (i : Nat) (n : Int) : Int := if n > 0 then n + 1 else i + n

/-- The concatenation of two layers along their channels, or another name for one layer. More than
two layers are passed over. -/
def route : Except Fault Laid := do
  let reads (s : String) : Except Fault Int := orFault .value (Decimal.readInt? s)
  match Text.split ',' (← b.get "layers").text with
  | [s] =>
    let name ← p.outputOf (i + (← reads s))
    return { output := some name, feed := some name }
  | [s, t] =>
    let first ← p.outputOf (routed i (← reads s))
    let firstShape ← p.shapeOf first
    let second ← p.outputOf (routed i (← reads t))
    let secondShape ← p.shapeOf second
    let channels := (← sizeAt firstShape (-1)) + (← sizeAt secondShape (-1))
    let outShape ← withChannels firstShape (.ofScalar channels)
    return single {
      name := b.layerName i "concat", type := "Concat", inputs := [first, second]
      props := ⟨[wholeProp "axis" 3, shapeProp outShape]⟩ }
  | _ => return {}

def rectifier (b : Block) (i : Nat) (source : String) (props : List (String × Value)) : Node :=
  { name := b.followerName i "act", type := "ReLU", inputs := [source], props := ⟨props⟩ }

def shortcut : Except Fault Laid := do
  let other ← p.outputOf (i + (← b.whole "from"))
  let last ← p.outputOf ((i : Int) - 1)
  let shape := shapeProp (← p.shapeOf last)
  let sum : Node := {
    name := b.layerName i "shortcut", type := "Add", inputs := [other, last]
    props := ⟨[("operation", .text "SUM"), shape]⟩ }
  let activation ← b.get "activation"
  if activation = .given "linear" then return single sum
  let leaks := if activation = .given "leaky" then [leak] else []
  let act := rectifier b i sum.name (shape :: leaks)
  return { nodes := [sum, act], output := some sum.name, feed := some act.name }

def connected : Except Fault Laid := do
  let source ← p.source
  let outputs ← b.whole "output"
  let outShape ← withChannels (← p.shapeOf source) (.int outputs)
  let dense : Node := {
    name := b.layerName i "fc", type := "InnerProduct", inputs := [source]
    props := ⟨[wholeProp "num_output" outputs, shapeProp outShape]⟩ }
  let activation ← b.get "activation"
  if activation = .given "linear" then return single dense
  let leaks := if activation = .given "leaky" then [leak] else []
  let act := rectifier b i dense.name (leaks ++ [shapeProp outShape])
  return { nodes := [dense, act], output := some dense.name, feed := some act.name }

def softmax : Except Fault Laid := do
  let source ← p.source
  return single {
    name := b.layerName i "softmax", type := "Softmax", inputs := [source]
    props := ⟨[shapeProp (← p.shapeOf source)]⟩ }

def detection : Except Fault Laid := do
  let source ← p.source
  let fractions ← ["truth_thresh", "random", "ignore_thresh", "jitter"].mapM fun k => do
    return (k, ← b.fraction k)
  let counts ← ["num", "classes"].mapM fun k => do return wholeProp k (← b.whole k)
  let lists ← ["anchors", "mask"].mapM fun k => do return (k, Value.ints (← b.wholes k))
  let node : Node := {
    name := b.layerName i "yolo", type := "yolo", inputs := [source]
    props := ⟨fractions ++ counts ++ lists⟩ }
  return { nodes := [node], output := some node.name }

def upsample : Except Fault Laid := do
  let source ← p.source
  let inputShape ← p.shapeOf source
  let stride ← b.whole "stride"
  let stretch (v : Value) : Except Fault Value := do return .ofScalar ((← v.toScalar) * .int stride)
  let images ← inputShape.index 0
  let sides ← (((← inputShape.elements).take 3).drop 1).mapM stretch
  let outShape := Value.list (images :: sides ++ [← inputShape.index (-1)])
  return single {
    name := b.layerName i "upsample", type := "upsample", inputs := [source]
    props := ⟨[wholeProp "strides" stride, shapeProp outShape]⟩ }

def layOut : Except Fault Laid :=
  match b.type with
  | "net" => input b
  | "convolutional" => convolution p i b
  | "maxpool" => maxPooling p i b
  | "avgpool" => meanPooling p i b
  | "route" => route p i b
  | "shortcut" => shortcut p i b
  | "connected" => connected p i b
  | "softmax" => softmax p i b
  | "yolo" => detection p i b
  | "upsample" => upsample p i b
  | "cost" => .ok {}
  | _ => .error .condition

def planFrom : Plan → Nat → List Block → Except Fault Plan
  | p, _, [] => .ok p
  | p, i, b :: bs => do planFrom (p.extend i (← layOut p i b)) (i + 1) bs

def planOf (bs : List Block) : Except Fault Plan := planFrom {} 0 bs

def Plan.wired : Graph Node × List String :=
  let g : Graph Node := p.nodes.entries.foldl (fun g e => g.add e.1 e.2) {}
  let edges := p.nodes.entries.flatMap fun e => e.2.inputs.map fun source => (source, e.1)
  let (g, log) := g.connectAll edges
  (g.finish, log)

def Plan.graph : Graph Node := p.wired.1

end NetBridge.Config
