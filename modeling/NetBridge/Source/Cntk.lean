import NetBridge.Source.Builder

/-!
# CNTK functions

A function is given by objects that refer to each other: functions with an operator and inputs, the
variables they give, inputs, parameters and constants. The graph has a vertex for every function and
every input.
-/

namespace NetBridge.Source.Cntk

structure Item where
  uid : String
  properties : Table Value := ∅
  deriving Inhabited

structure Objects where
  items : Table Item := ∅
  deriving Inhabited

def flags : List String :=
  ["is_block", "is_output", "is_input", "is_placeholder", "is_parameter", "is_constant"]

def defaultOf (isFunction : Bool) (name : String) : Option Value :=
  if flags.contains name then some (.bool false)
  else match name with
    | "name" => some (.text "")
    | "inputs" | "parameters" => if isFunction then some (.list []) else none
    | "attributes" => if isFunction then some (.record []) else none
    | _ => none

namespace Item

variable (o : Item)

def has (name : String) : Bool := o.properties.contains name

def get (name : String) : Except Fault Value :=
  orFault .property
    ((o.properties.find? name).orElse fun _ => defaultOf (o.has "op_name") name)

def flag (name : String) : Bool :=
  match o.get name with
  | .ok v => v.isSet
  | .error _ => false

def label : String :=
  match o.get "name" with
  | .ok (.text s) => s
  | _ => ""

def op : Except Fault String :=
  match o.properties.find? "op_name" with
  | some (.text s) => .ok s
  | some _ => .error .kind
  | none => if o.flag "is_input" then .ok "DataInput" else .error (.silent .unsupported)

def value : Except Fault Value := o.get "value"

end Item

namespace Objects

variable (os : Objects)

def target (v : Value) : Except Fault Item :=
  match v with
  | .handle uid => os.items.get uid .key
  | _ => .error .property

def part (o : Item) (name : String) : Except Fault Item := do
  os.target (← o.get name)

def inputs (o : Item) : Except Fault (List Item) := do
  (← (← o.get "inputs").elements).mapM os.target

def input (o : Item) (i : Int) : Except Fault Item := do
  os.target (← (← o.get "inputs").index i)

def firstSource (o : Item) : Except Fault Item := do
  os.part (← os.input o 0) "owner"

def attributesFrom (os : Objects) (name : String) : Nat → Item → Except Fault Value
  | 0, _ => .error .property
  | fuel + 1, o => do
    let fs ← o.get "attributes"
    if (fs.field? name).isSome then return fs
    else attributesFrom os name fuel (← os.firstSource o)

def attributesWith (o : Item) (name : String) : Except Fault Value := do
  let fs ← o.get "attributes"
  if (fs.field? name).isSome then return fs
  else os.attributesFrom name (os.items.size + 1) (← os.part o "block_root")

def setting (o : Item) (name : String) : Except Fault Value := do
  let holder ← if o.flag "is_block" then os.part o "block_root" else pure o
  orFault .key ((← holder.get "attributes").field? name)

end Objects

/-! ## The graph -/

structure Traversal where
  graph : Graph Item := {}
  visited : List String := []

def Traversal.wire (t : Traversal) (o : Item) (reader : String) : Traversal :=
  let g := if t.graph.has o.uid then t.graph else t.graph.add o.uid o
  { t with graph := (g.connect o.uid reader).1 }

variable (v : Vertex Item) (o : Item)

def sources : Except Fault (List Value) := do
  if o.flag "is_block" then
    (← (← o.get "block_arguments_mapping").elements).mapM fun p => do
      match ← p.elements with
      | [_, v] => return v
      | _ => throw .value
  else (← o.get "inputs").elements

def visit (os : Objects) : Nat → Traversal → Item → Except Fault Traversal
  | 0, t, _ => .ok t
  | fuel + 1, t, o =>
    if t.visited.contains o.uid then .ok t
    else do
      (← sources o).foldlM (fun t v => do
        let i ← os.target v
        if i.flag "is_output" then
          let f ← os.part i "owner"
          visit os fuel (t.wire f o.uid) f
        else if i.flag "is_input" then return t.wire i o.uid
        else if i.flag "is_placeholder" then
          throw (.report .unsupported "PlaceHolder of placeholder is not supported.")
        else return t) { t with visited := o.uid :: t.visited }

def chosenOutput (os : Objects) (outputs : List Value) : Except Fault Item := do
  let items ← outputs.mapM os.target
  match items with
  | [] => throw .position
  | [o] => return o
  | _ =>
    let rec pick : List Item → Except Fault Item
      | [] => .error { cause := .unassigned }
      | o :: rest => do
        if (← (← o.get "shape").length) > 0 then return o else pick rest
    pick items

def graphOf (os : Objects) (outputs : List Value) : Except Fault (Graph Item) := do
  let root ← os.part (← chosenOutput os outputs) "owner"
  let t ← visit os (os.items.size + 1) { graph := ({} : Graph Item).add root.uid root } root
  return t.graph.finish

/-! ## Parts of layers -/

abbrev Convert (β : Type) := Build Item Objects β

def elementType (v : Value) : Except Fault Int :=
  match v with
  | .text "float32" => .ok 10
  | .text "float64" => .ok 11
  | .text _ => .error .condition
  | v =>
    match v.toInt with
    | .ok 0 => .ok 0 | .ok 3 => .ok 3 | .ok 4 => .ok 5 | .ok 5 => .ok 2 | .ok 6 => .ok 1
    | .ok 7 => .ok 15 | .ok 9 => .ok 4
    | _ => .error .condition

def shapeOf : Except Fault (List Value) := do
  match ← o.get "shape" with
  | .tuple ds => return .int (-1) :: ds
  | _ => throw .kind

def identify (k : Nat) (op : String) (channelsLast : Bool) : Convert Unit := do
  setName k (← outputNameOf v.name)
  setOp k op
  if v.item.has "dtype" then setType k "dtype" (← elementType (← v.item.get "dtype"))
  if v.item.has "shape" then
    let dims ← shapeOf v.item
    let dims ← if channelsLast then Axes.channelsLast dims else pure dims
    let sizes : List Int ← (dims.mapM int64Of : Except Fault _)
    addShape k "_output_shapes" sizes

def carry (op : String) (channelsLast : Bool := false)
    (stop : Option Nat := none) : Convert Nat := do
  let k ← newLayer
  identify v k op channelsLast
  readSources v k 0 stop
  return k

def valueOf : Except Fault Value :=
  if o.flag "is_parameter" || o.flag "is_constant" then o.value
  else .error (.report .value ("Unknown variable [" ++ o.uid ++ "]."))

def arrayOf : Value → Except Fault Tensor
  | .array t => .ok t
  | _ => .error .property

def tensorOf : Except Fault Tensor := do arrayOf (← valueOf o)

def flatOf : Except Fault Value := do return .array (← (← tensorOf o).reshape [-1])

/-- The pads of a window over the spatial axes; an axis that is not padded has none. -/
def padsOf (kernel auto : List Value) : Except Fault (List Int) := do
  let ps ← kernel.zipIdx.mapM fun (n, i) => do
    let a ← orFault .position auto[i]?
    if a.same (.bool false) then return (0, 0)
    else
      let n ← n.toInt
      return (if n.fmod 2 ≠ 0 then n.fdiv 2 else n.fdiv 2 - 1, n.fdiv 2)
  return Padding.flat ([(0, 0)] ++ ps ++ [(0, 0)])

def behindFirst (v : Value) : Except Fault (List Value) :=
  match v with
  | .list vs | .tuple vs => .ok (vs.drop 1)
  | _ => .error .kind

def framed (attributes : Value) (name : String) : Except Fault Value := do
  let vs ← (← orFault .key (attributes.field? name)).elements
  return .list ([.int 1] ++ vs.drop 1 ++ [.int 1])

def padWord (v : Value) : Value := .text (if v.isSet then "SAME_LOWER" else "VALID")

def windowOf (attributes : Value) (kernel : Tensor) : Except Fault (List (String × Value)) := do
  let strides ← framed attributes "strides"
  let dilations ← framed attributes "dilation"
  let auto ← behindFirst (← orFault .key (attributes.field? "autoPadding"))
  require (auto.all fun p => p.same (auto.headD .none))
  let first ← orFault .position auto.head?
  let shape := kernel.shape.map fun n : Nat => Value.int n
  let pads ← padsOf (Value.slice shape none (some (-2))) auto
  return [("strides", strides), ("dilations", dilations), ("kernel_shape", .list shape),
    ("auto_pad", padWord first), ("pads", .ints pads)]

def kernelLast (t : Tensor) : Except Fault Tensor := t.transpose (Axes.kernelChannelsLast t.rank)

/-- Takes over the bias that the next function adds, if it adds one; that function is then dealt
with. -/
def takeBias : Convert Bool := do
  match ← child? v.name [0] with
  | none => return false
  | some n =>
    if (← n.item.op) ≠ "Plus" then return false
    let ps ← n.item.get "parameters"
    if !ps.isSet then return false
    takeOutput v.name n.name
    let p ← (← own).target (← ps.index 0)
    setWeight v.item.uid "bias" (← p.value)
    return true

/-! ## Layers -/

def convolution : Convert Unit := do
  let k ← carry v "Conv"
  let inputs ← (← own).inputs v.item
  let w ← orFault { cause := .unassigned } (inputs.find? fun i => Text.endsWith i.label "W")
  let kernel ← kernelLast (← tensorOf w)
  setWeight v.item.uid "weights" (.array kernel)
  let attributes ← (← own).attributesWith v.item "strides"
  let window ← windowOf attributes kernel
  let bias ← takeBias v
  assign k (window ++ [("use_bias", .bool bias)])

def bare : Convert Unit := do
  Run.require (!(← v.item.get "parameters").isSet)

def plus : Convert Unit := do
  if !v.covered then
    bare v
    let _ ← carry v "Add"

def addConstant (k : Nat) : Convert Unit := do
  let c ← newLayer
  setName c o.uid
  setOp c "Constant"
  let t ← match ← valueOf o with
    | .array t => if t.rank = 0 then t.reshape [1] else pure t
    | .int n => pure (.ofInts [n])
    | x => do pure (.ofFloats [← x.toFloat])
  setWeight o.uid "value" (.array t)
  addInput k o.uid

def binary (op : String) : Convert Unit := do
  let k ← carry v op
  (← (← own).inputs v.item).forM fun i => do
    if i.flag "is_constant" then addConstant i k

def minus : Convert Unit := do
  if !v.covered then
    bare v
    binary v "Sub"

def reshape : Convert Unit := do
  let k ← carry v "Reshape" true
  let shape ← (← (← own).setting v.item "newShape").elements
  assign k [("shape", .list (← Axes.channelsLast shape))]

def times : Convert Unit := do
  let k ← carry v "FullyConnected"
  let p ← (← own).target (← (← v.item.get "parameters").index 0)
  let w := (← arrayOf (← p.value)).squeeze
  setWeight v.item.uid "weights" (.array w)
  let units : Nat ← orFault .position w.shape.getLast?
  let bias ← takeBias v
  assign k [("units", .int units), ("use_bias", .bool bias)]

def splice : Convert Unit := do
  let k ← carry v "Concat" true
  let axis ← (← (← own).setting v.item "axis").index (-1)
  assign k [("axis", .int ((← axis.toInt) + 1))]

def poolSizes (name : String) (rank : Nat) : Convert (List Value) := do
  let vs := (← (← (← own).setting v.item name).elements) ++ [.int 1]
  return if vs.length < rank then .int 1 :: vs else vs

def poolPadding (flags : List Value) (rank : Nat) : Except Fault (List Value) :=
  if flags.length + 1 ≥ rank then .ok (flags.drop 1)
  else if flags.length + 2 < rank then do
    let last ← orFault .position flags.getLast?
    return flags ++ List.replicate (rank - flags.length - 2) last
  else .ok flags

def pooling : Convert Unit := do
  let k ← carry v "Pool" true
  let rank := (← outputDims k).length
  let strides ← poolSizes v "strides" rank
  let kernel ← poolSizes v "poolingWindowShape" rank
  let type ← (← own).setting v.item "poolingType"
  let word ←
    if type.same (.int 0) then pure "MAX"
    else if type.same (.int 1) then pure "AVG"
    else throw (.report .value ("Unknown pooling type [" ++ type.display ++ "]."))
  let auto ← poolPadding (← (← (← own).setting v.item "autoPadding").elements) rank
  Run.require (auto.all fun p => p.same (auto.getLastD .none))
  let first ← orFault .position auto.head?
  let pads ← padsOf (Value.inner kernel) auto
  assign k [("strides", .list strides), ("kernel_shape", .list kernel), ("pooling_type", .text word),
    ("auto_pad", padWord first), ("pads", .ints pads)]

def maxPooling : Convert Unit := do
  if v.item.flag "is_block" then
    let os ← own
    let inside ← os.part (← os.part v.item "block_root") "owner"
    pooling { v with item := inside }
  else pooling v

def dataInput : Convert Unit := do
  let k ← carry v "DataInput" true
  let dims ← Axes.channelsLast (.int (-1) :: (← (← v.item.get "shape").elements))
  let sizes : List Int ← (dims.mapM int64Of : Except Fault _)
  assign k [("shape", .shape sizes)]

def batchNormalization : Convert Unit := do
  let inputs ← (← own).inputs v.item
  inputs.forM fun i => do
    let name? : Option String :=
      if Text.endsWith i.label "scale" then some "scale"
      else if Text.endsWith i.label "bias" then some "bias"
      else if Text.endsWith (Text.lower i.label) "mean" then some "mean"
      else if Text.endsWith (Text.lower i.label) "variance" then some "var"
      else none
    match name? with
    | some name => setWeight v.item.uid name (← flatOf i)
    | none => pure ()
  let k ← carry v "BatchNorm" true (some 1)
  let ends (word : String) : Bool := inputs.any fun i => Text.endsWith i.label word
  assign k [("scale", .bool (ends "scale")), ("bias", .bool (ends "bias")),
    ("epsilon", ← (← own).setting v.item "epsilon"), ("axis", .int (-1))]

def elementTimes : Convert Unit := do
  let _ ← (← own).input v.item 0
  let _ ← (← own).input v.item 1
  binary v "Mul"

def dropout : Convert Unit := do rename v.name (← parent v.name [0]).outputName

def denseMatrix (t : Tensor) : Except Fault Tensor := do
  let w := t.squeeze
  if w.rank > 2 then
    let order := ((List.range (w.rank - 1)).drop 1).map Int.ofNat ++ [0, -1]
    let w ← w.transpose order
    w.reshape [-1, Int.ofNat (w.shape.getLastD 0)]
  else return w

def dense : Convert Unit := do
  let k ← carry v "FullyConnected"
  (← (← own).inputs v.item).forM fun i => do
    if Text.endsWith i.label "W" then
      let w ← denseMatrix (← tensorOf i)
      setWeight v.item.uid "weights" (.array w)
      let units : Nat ← orFault .position w.shape.getLast?
      assign k [("units", .int units)]
    else if Text.endsWith i.label "b" then
      setWeight v.item.uid "bias" (← valueOf i)
      assign k [("use_bias", .bool true)]

def convolutionBlock : Convert Unit := do
  Run.require (v.item.flag "is_block")
  let os ← own
  let k ← newLayer
  let root ← os.part v.item "block_root"
  let sum ← os.firstSource root
  let conv ← os.firstSource sum
  setName k conv.uid
  setOp k "Conv"
  addInput k (← parent v.name [0]).outputName
  let kernel ← kernelLast (← tensorOf (← os.input conv 0))
  setWeight conv.uid "weights" (.array kernel)
  let window ← windowOf (← conv.get "attributes") kernel
  assign k (window ++ [("use_bias", .bool true)])
  let bias ← tensorOf (← os.input sum 1)
  setWeight conv.uid "bias" (.array bias.squeeze)
  let act ← (← os.part root "owner").get "op_name"
  let a ← newLayer
  setName a v.name
  addInput a conv.uid
  Run.require (act.same (.text "ReLU")) (.silent .value)
  setOp a "Relu"

def activation : Convert Unit := do
  Run.require (v.item.flag "is_block")
  let os ← own
  let inside ← os.part (← os.part v.item "root_function") "owner"
  Run.require (Text.startsWith inside.label "relu") (.silent .value)
  let _ ← carry v "Relu"

def unknown (op : String) : Convert Unit := do
  say ("Cntk Parser has not supported operator [" ++ op ++ "] with name [" ++ v.name ++ "].")
  throw .condition

def rule? : String → Option (Vertex Item → Convert Unit)
  | "Convolution" => some convolution
  | "ReLU" => some fun v => do let _ ← carry v "Relu"
  | "Relu6" => some fun v => do let _ ← carry v "Relu6"
  | "Plus" => some plus
  | "Minus" => some minus
  | "Sub" => some fun v => do let _ ← carry v "Sub"
  | "Reshape" => some reshape
  | "Times" => some times
  | "MaxPooling" => some maxPooling
  | "AveragePooling" | "Pooling" => some pooling
  | "Splice" => some splice
  | "DataInput" => some dataInput
  | "BatchNormalization" => some batchNormalization
  | "ElementTimes" => some elementTimes
  | "Log" => some fun v => do let _ ← carry v "Log"
  | "Exp" => some fun v => do let _ ← carry v "Exp"
  | "Reciprocal" => some fun v => do let _ ← carry v "Reciprocal"
  | "Dropout" => some dropout
  | "Dense" => some dense
  | "Convolution2D" => some convolutionBlock
  | "Activation" => some activation
  | _ => none

def convertItem : Convert Unit := do
  let op ← v.item.op
  match rule? op with
  | some rule => rule v
  | none => unknown v op

def start (os : Objects) (outputs : List Value) : Except Fault (Builder Item Objects) := do
  return { graph := ← graphOf os outputs, loaded := true, own := os }

def convert : Convert Unit := convertAll convertItem

end NetBridge.Source.Cntk
