import NetBridge.Network.Document
import NetBridge.Prototxt.Convert
import NetBridge.Record.Net
import NetBridge.Service.Answer

/-!
# Requests on nets

Building a net from its description, converting one, and working on the nodes of one step by step.
-/

namespace NetBridge.Service

open Record Prototxt

/-! ## Nodes as answers -/

def sizesAnswer (s : Option Sizes) : Value :=
  match s with
  | some s => .ints s.dims
  | none => .none

def nodeAnswer (g : Net) (i : Nat) : Value :=
  let n := g.node i
  .record [
    ("name", .text n.name),
    ("kind", (n.kind.map Value.text).getD .none),
    ("parents", .list (n.parents.map fun (p, k) => .list [.text (g.node p).name, .int k])),
    ("children", texts (n.children.map fun c => (g.node c).name)),
    ("output", texts n.outputs),
    ("output_shape", sizesAnswer n.sizes),
    ("data", n.arrays.value),
    ("relu", .bool n.rectified)]

def nodeNames (g : Net) (is : List Nat) : Value := texts (is.map fun i => (g.node i).name)

def windowAnswer (w : Window) : Value :=
  .list [.bool w.whole, .int w.kernelH, .int w.kernelW, .int w.strideH, .int w.strideW,
    .int w.padH, .int w.padW]

/-! ## Building and converting -/

def shapeOption (r : Value) : Option (List Value) :=
  match r.field? "input_shape" with
  | none | some .none => none
  | some v => some v.elems

def phaseOption (r : Value) : String :=
  match r.fieldD "phase" with
  | .text p => p
  | _ => "test"

def windowsAnswer (g : Net) : Except Fault Value := do
  let rows ← (g.nodes.filter fun n => hasWindow n.kind).mapM fun n => do
    return Value.list [.text n.name, windowAnswer (← n.window)]
  return .list rows

variable (engine : Option Engine)

def buildNet (r : Value) : Answer := .ofExcept do
  let g ← build (netSpec (r.fieldD "net"))
    { inputShape := shapeOption r, training := (r.fieldD "train_proto").isSet
      phase := phaseOption r, engine := engine }
  let table ← g.table
  return .fields [
    ("name", .value ((g.name.map Value.text).getD .none)),
    ("nodes", .value (.list (g.members.map (nodeAnswer g)))),
    ("text", text table),
    ("sorted", .value (nodeNames g g.sorted)),
    ("inputs", .value (nodeNames g g.inputs)),
    ("outputs", .value (nodeNames g g.outputs)),
    ("kernels", .value (← windowsAnswer g))]

def conversionOf (r : Value) : Conversion :=
  let spec := netSpec (r.fieldD "net")
  let model := match r.field? "model" with
    | some m => netSpec m
    | none => spec
  { spec := if (r.fieldD "no_net").isSet then none else some spec
    model := (r.field? "blobs").map (withBlobs model)
    target := match r.fieldD "target" with
      | .text t => t
      | _ => "tensorflow"
    inputShape := shapeOption r
    phase := phaseOption r
    engine := engine }

def outputsAnswer (d : Draft) : Value :=
  .list (d.layers.values.map fun l => .list [.text l.layer.name, texts l.outputs])

def convertNet (r : Value) : Answer := .ofExcept do
  let s ← (conversionOf engine r).run
  let log : List (String × Answer) := [("log", logged s.log)]
  match toDraft s.net with
  | .error f => return .record log (some f)
  | .ok (d, names) =>
    let shown : List (String × Answer) := [
      ("name", text d.name),
      ("graph", .value (layers d.network.layers)),
      ("output", .value (outputsAnswer d))]
    match layerArrays s.net names with
    | .error f => return .record (log ++ shown) (some f)
    | .ok arrays =>
      let json : List (String × Answer) :=
        if (r.fieldD "json").isSet then [("json", text (Document.json d.network))] else []
      return .fields (log ++ shown ++
        [("data", .value (.record (arrays.entries.map fun e => (e.1, e.2.value))))] ++ json)

def engineOf (v : Value) : Engine :=
  { blobs := Table.ofList ((v.fieldD "blobs").fields.map fun (k, s) =>
      (k, s.elems.filterMap wholeOf))
    params := Table.ofList ((v.fieldD "params").fields.map fun (k, ts) =>
      (k, ts.elems.filterMap fun t => (tensorOf t).toOption)) }

def engineCall (files : Nat) : Value :=
  .list [.text "caffe.Net", .list (List.replicate files (.text "file") ++ [.int 1]), .record []]

def asksForArrays (c : Conversion) : Bool :=
  c.model.isSome && c.spec.isSome &&
    (match c.plan with
      | .ok p => (build p.spec { inputShape := p.inputShape, training := p.training
                                 phase := c.phase, engine := c.engine }).toBool
      | .error _ => false)

def asksForSizes (o : BuildOptions) (n : NetSpec) : Bool :=
  let nodes := do
    let n ← if o.training then n.deployed o.inputShape else pure n
    let layers ← keptLayers o.phase [] n.allLayers
    let own ← layers.mapM layerNode
    wire ∅ (Net.ofNodes n.name (inputNodes n ++ own)) layers
  nodes.toBool

def withEngine (r : Value) : Answer :=
  let e := engineOf (r.fieldD "pycaffe")
  let build := textOf r "inner" = "caffe_build"
  let calls : List Value :=
    if build then
      let o : BuildOptions := { inputShape := shapeOption r, phase := phaseOption r, engine := some e
                                training := (r.fieldD "train_proto").isSet }
      if asksForSizes o (netSpec (r.fieldD "net")) then [engineCall 1] else []
    else
      let c := conversionOf (some e) r
      let sizes := match c.plan with
        | .ok p => asksForSizes { inputShape := p.inputShape, training := p.training
                                  phase := c.phase, engine := some e } p.spec
        | .error _ => false
      (if sizes then [engineCall 1] else []) ++ (if asksForArrays c then [engineCall 2] else [])
  .fields [("answer", if build then buildNet (some e) r else convertNet (some e) r),
    ("calls", .value (.list calls))]

def loadStored (r : Value) : Answer :=
  let n := withBlobs (netSpec (r.fieldD "net")) (r.fieldD "blobs")
  let typeValue : LayerType → Value
    | .named s => .text s
    | .numbered k => .int k
  let row (l : LayerSpec) : Value := .list [.text l.name, typeValue l.type, texts l.bottoms,
    texts l.tops, .list (l.blobs.map fun b => .int b.data.length)]
  .fields [
    ("log", text "Loading caffemodel:  net.caffemodel\n"),
    ("name", text n.name),
    ("layers", .value (.list (n.layers.map row)))]

/-! ## Work on nodes -/

structure Bench where
  session : Session := {}
  made : Table Nat := ∅

namespace Bench

variable (b : Bench)

def net : Net := b.session.net

def withNet (g : Net) : Bench := { b with session := { b.session with net := g } }

def number (name : String) : Except Fault Nat := b.made.get name .key

def update (name : String) (f : Node → Node) : Except Fault Bench := do
  return b.withNet (b.net.update (← b.number name) f)

def create (name : String) (kind shape : Value) : Except Fault Bench := do
  let sizes ← match shape with
    | .none => pure none
    | v => do pure (some (← Sizes.full (← v.toInts)))
  let (g, i) := b.net.create
    { name := name, sizes := sizes
      kind := match kind with
        | .text k => some k
        | _ => none }
  return { b.withNet g with made := b.made.insert name i }

def transform (t : NetRun Unit) : Step Bench :=
  let (out, s) := t.outcome { b.session with log := [] }
  { outcome := out.map fun _ => logged s.log, state := { b with session := s } }

def renameAll : NetRun Unit := do
  (← current).members.forM fun i =>
    change fun g => g.update i fun n => { n with name := Text.replaceChar '/' '_' n.name }

def layersOf (g : Net) (i : Nat) : Except Fault Answer := do
  let kind ← orFault .kind (g.node i).kind
  let rule ← orFault .property (nodeRule? (handlerName kind))
  return .value (layers ((← rule g i).map (·.layer)))

def inspect (word : String) (args : List Value) : Except Fault Answer := do
  let g := b.net
  let name := argText args 0
  match word with
  | "only_parent" =>
    let (p, k) ← g.onlyParent (← b.number name)
    return .value (.list [.text (g.node p).name, .int k])
  | "get_node" => return text (g.node (← g.find name)).name
  | "contains" => return truth (g.byName.contains name)
  | "sorted" => return .value (nodeNames g g.sorted)
  | "ends" => return .value (.list [nodeNames g g.inputs, nodeNames g g.outputs])
  | "str" => return text (← g.table)
  | "node_str" => return text (g.node (← b.number name)).text
  | "node" => return .value (nodeAnswer g (← b.number name))
  | "nodes" => return .value (nodeNames g g.members)
  | "kernel" => return .value (windowAnswer (← (g.node (← b.number name)).window))
  | "parameters" => return truth (← (g.node (← b.number name)).settings).isSome
  | "shape" =>
    match ← outputSizes g (← b.number name) with
    | some ds => return .value (.ints ds)
    | none => return .value .none
  | "map" => layersOf g (← b.number name)
  | "reshape_map" => return .value (.ints (← layoutOrder name))
  | "is_image" => return .value (.int (imageReaders g (← b.number name)))
  | "spatial" => return truth (← readsImage g (← b.number name))
  | _ => throw .value

def step (word : String) (args : List Value) : Step Bench :=
  let name := argText args 0
  match word with
  | "new" => .attempt b (b.create name (arg args 1) (arg args 2))
  | "data" => .attempt b do
    let arrays ← match arg args 1 with
      | .none => pure Arrays.absent
      | v => do pure (.listed (← v.elems.mapM tensorOf))
    b.update name fun n => { n with arrays := arrays }
  | "layer" => .attempt b (b.update name fun n => { n with spec := some (layerSpec false (arg args 1)) })
  | "add" => .attempt b do return b.withNet (b.net.add (← b.number name))
  | "parent" => .attempt b do
    let child ← b.number name
    let parent ← b.number (argText args 1)
    return b.withNet (b.net.connect child parent (← (arg args 2).toInt))
  | "relu" =>
    let kinds := match args with
      | v :: _ => if v.isNone then none else some (textsOf v)
      | [] => none
    b.transform (fuse (rectifierFusion kinds))
  | "fuse_scale" => b.transform (fuse scalingFusion)
  | "bn" => b.transform prescaleAll
  | "rename" => b.transform renameAll
  | "reshape" => b.transform (relayAll ((args.head?.map Value.isSet).getD true))
  | "name_params" => b.transform nameAll
  | "base_fuser" => b.transform (fuse openFusion)
  | _ => .look b (b.inspect word args)

end Bench

def netScript (r : Value) : Answer :=
  let name := match r.fieldD "name" with
    | .text s => some s
    | _ => none
  scripted Bench.step { session := { net := { name := name } } } r

end NetBridge.Service
