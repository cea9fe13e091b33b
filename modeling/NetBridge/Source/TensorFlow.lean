import NetBridge.Source.Builder

/-!
# TensorFlow graphs

A graph is a list of nodes with an operator, the names of the nodes they read, and attributes. Asking
for an attribute by name leaves it there, holding nothing, if it was not.
-/

namespace NetBridge.Source.TensorFlow

def wire (name : String) (g : Graph Layer × List String) (source : String) :
    Graph Layer × List String :=
  let graph :=
    if g.1.has source then g.1 else g.1.add source { name := source, op := "NoOp" }
  let (graph, log) := graph.connect source name
  (graph, g.2 ++ log)

/-- The graph of a list of nodes, and the reports on edges left out. A node that comes after one that
reads it is added anew, without that edge. -/
def graphOf (nodes : List Layer) : Graph Layer × List String :=
  let start := nodes.foldl (fun g n => g.add n.name n) ({} : Graph Layer)
  let (g, log) := nodes.foldl
    (fun g n => n.inputs.foldl (wire n.name) (g.1.add n.name n, g.2)) (start, [])
  (g.finish, log)

/-! ## Literal tensors -/

def elemOf? : Int → Option Elem
  | 1 => some .float32
  | 2 => some .float64
  | 3 | 13 => some .int32
  | 4 | 12 => some .uint8
  | 5 => some .int16
  | 6 | 11 => some .int8
  | 9 => some .int64
  | 10 => some .bool
  | _ => none

def listed (t : LiteralTensor) : List Scalar :=
  if t.floats.isEmpty then t.ints.map .int else t.floats.map .real

def arrayOf (t : LiteralTensor) : Except Fault Tensor := do
  let e ← orFault .key (elemOf? t.elem)
  let raw (ss : List Scalar) : Tensor := ⟨e, Grid.ofList (ss.map (Scalar.cast e))⟩
  if !t.content.isEmpty then (raw t.content).reshape t.dims
  else
    match listed t with
    | [s] =>
      require (t.dims.all fun d => 0 ≤ d) .value
      return ⟨e, Grid.filled (t.dims.map Int.toNat) (Scalar.cast e s)⟩
    | ss => (raw ss).reshape t.dims

def elementType? : Int → Option Int
  | 0 => some 0
  | 1 => some 10
  | 2 => some 11
  | 3 => some 3
  | 4 => some 5
  | 5 => some 2
  | 6 => some 1
  | 7 => some 15
  | 9 => some 4
  | _ => none

/-! ## Attributes of nodes -/

variable (v : Vertex Layer)

def has (name : String) : Bool := v.item.hasAttr name

def get (name : String) (default : Value := .none) : Except Fault Value :=
  v.item.get name default

def literal (name : String) : Except Fault LiteralTensor :=
  match v.item.attr name with
  | .tensor t => .ok t
  | _ => do
    let _ ← get v name
    throw .property

def constant : Except Fault Tensor := do arrayOf (← literal v "value")

def firstInt : Except Fault Int := do
  orFault .position (← literal v "value").ints.head?

def formatOf : Except Fault (List (String × Value)) := do
  if has v "data_format" then return [("data_format", ← get v "data_format")] else return []

def outputSizes : Except Fault (List Int) := do
  match v.item.attr "_output_shapes" with
  | .list { shapes := s :: _, texts := [], ints := [], floats := [], flags := [], types := [], .. } =>
    return s
  | _ =>
    match ← get v "_output_shapes" with
    | .list _ => throw .property
    | .text s => if s.isEmpty then throw .position else throw .property
    | _ => throw .kind

def scopes (name : String) : List String := Text.split '/' name

def enclosing (name : String) : Except Fault String := Value.nth (scopes name) (-2)

def leftOut : List String :=
  ["random_uniform", "Initializer", "optimizer", "weight_loss", "parallel_read", "case"]

/-! ## Parts of layers -/

section

variable {σ : Type}

def claimAttr (name key : String) : Build Layer σ Attr := do
  modifyVertex name fun v => { v with item := v.item.touch key }
  return (← vertex name).item.attr key

/-- The literal tensor under an attribute that is asked for by name; an empty one if there is none. -/
def claimLiteral (name key : String) : Build Layer σ LiteralTensor := do
  match ← claimAttr name key with
  | .tensor t => return t
  | _ => return default

variable (v : Vertex Layer)

def sourceAt (i : Nat) : Build Layer σ (Vertex Layer) := do
  vertex (← orFault .position v.sources[i]?)

def inputAt (i : Nat) : Build Layer σ (Vertex Layer) := do
  vertex (← orFault .position v.item.inputs[i]?)

def leadWith (n : Int) : List Int → Except Fault (List Int)
  | [] => .error .position
  | _ :: ds => .ok (n :: ds)

def setPads (k : Nat) (kernel : Value) : Build Layer σ Unit := do
  let shape ← outputSizes (← parent v.name [0])
  match ← get v "padding" with
  | .text "VALID" =>
    assign k [("auto_pad", .text "VALID"), ("pads", .ints (List.replicate (2 * shape.length) 0))]
  | .text "SAME" =>
    let strides ← (← get v "strides").elements
    let pads ← Padding.sameOf false (shape.map .int) kernel strides
    assign k [("auto_pad", .text "SAME_LOWER"), ("pads", .ints pads)]
  | _ => throw .condition

def setPool (k : Nat) (word : String) : Build Layer σ Unit := do
  let strides ← get v "strides"
  let kernel ← get v "ksize"
  setPads v k (.list (Value.inner (← kernel.elements)))
  assign k [("strides", strides), ("kernel_shape", kernel), ("pooling_type", .text word)]

def passOn : Build Layer σ Unit := do
  let s ← sourceAt v 0
  rename v.name s.outputName

/-- What is done about the first reader, if its operator is asked for. -/
def onNext (asked : String → Bool) (take : String → Vertex Layer → Build Layer σ Unit)
    (otherwise : Build Layer σ Unit := pure ()) : Build Layer σ Unit := do
  match v.targets with
  | [] => otherwise
  | t :: _ =>
    let next ← vertex t
    if asked next.item.op then take t next else otherwise

/-- A layer takes over the sum that adds its bias. -/
def takeSum (k : Nat) (t : String) : Build Layer σ Unit := do
  rename t (← layer k).name
  cover t
  setFlag k "use_bias" (.bool true)

def closeChain (k : Nat) (last : Vertex Layer) : Build Layer σ Unit := do
  Run.require (last.item.op == "Add")
  addInput k (← parent last.name [0, 0]).outputName
  rename last.name v.name

def convertKept (skip : Vertex Layer → Bool) (rule : Vertex Layer → Build Layer σ Unit) :
    Build Layer σ Unit :=
  convertAll fun v => do
    if v.covered || skip v || (scopes v.name).any leftOut.contains then pure () else rule v

end

end NetBridge.Source.TensorFlow
