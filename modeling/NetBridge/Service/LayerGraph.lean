import NetBridge.Network.LayerGraph
import NetBridge.Service.Answer
import NetBridge.Wire.Network

/-!
# Scripts on the graph of a network

Steps that build the graph of a network, look at it and change it.
-/

namespace NetBridge.Service

open Record

variable (g : LayerGraph)

def graphSummary : Answer :=
  let row (v : Vertex Layer) : Value := .list [.text v.name, .text v.item.op, texts v.sources,
    texts v.targets, .bool v.covered]
  .fields [("nodes", .value (.list (g.graph.vertices.values.map row))),
    ("output_layers", .value (texts g.graph.outputs)),
    ("topological_sort", .value (texts g.graph.order))]

def followPath (d : Graph.Direction) (args : List Value) : Step LayerGraph :=
  match arg args 0 with
  | .none => .look g (.ok (.value .none))
  | name =>
    match (arg args 1).toInts with
    | .error f => .look g (.error f)
    | .ok path =>
      let (out, graph) := g.graph.follow d name.display path (arg args 2).isSet
      { outcome := out.map fun v => .value ((v.map fun v => Value.text v.name).getD .none)
        state := { g with graph := graph } }

def updateLast (name : String) (l : Layer) : List Layer → List Layer
  | [] => []
  | k :: ks =>
    if k.name = name && !ks.any (·.name == name) then l :: ks else k :: updateLast name l ks

def assignTo (name : String) (values : List (String × Value)) : Step LayerGraph :=
  match g.graph.vertex name with
  | .error f => .look g (.error f)
  | .ok v =>
    let (out, l) := v.item.assignAll .general values
    let network := { g.network with layers := updateLast name l g.network.layers }
    { outcome := out.map fun _ => .value (attrs l.attrs)
      state := { g with network := network, graph := g.graph.modify name fun v => { v with item := l } } }

def graphStep (word : String) (args : List Value) : Step LayerGraph :=
  let name := argText args 0
  match word with
  | "build" =>
    let (out, g, log) := g.build
    { outcome := out.map fun _ => .value .none, state := g, log := log }
  | "summary" => .look g (.ok (graphSummary g))
  | "input_layers" =>
    let (ns, g) := g.takeInputs
    { outcome := .ok (names ns), state := g }
  | "get_node" => .look g ((g.graph.vertex name).map fun v => text v.name)
  | "get_son" => followPath g .down args
  | "get_parent" | "get_real_parent_name" => followPath g .up args
  | "get_attr" => .look g do return .value (← (← g.graph.vertex name).item.get (argText args 1) (arg args 2))
  | "variable_name" => .look g do
    let v ← g.graph.vertex name
    return names [v.variableName, v.variableName]
  | "replace_scope" => .look g (.ok (text (Text.replaceChar '/' '_' name)))
  | "rename" => .attempt g do
    let _ ← g.graph.vertex name
    return { g with graph := g.graph.modify name fun v => { v with outputName := argText args 1 } }
  | "set_attrs" => assignTo g name (arg args 1).fields
  | "node_set_attrs" => .look g do
    let _ ← g.graph.vertex name
    require (arg args 1).fields.isEmpty .property
    return .value .none
  | "connect" =>
    let (graph, log) := g.graph.connect name (argText args 1)
    { outcome := .ok (.value .none), state := { g with graph := graph }, log := log }
  | "filter_node" => .change { g with graph := LayerGraph.dropIsolated g.graph }
  | "sort" => .attempt g g.sort
  | _ => .look g (.error .value)

def graphScript (r : Value) : Answer := .ofExcept do
  return scripted graphStep { network := ← networkOf (r.fieldD "graph") } r

def loadNetwork (r : Value) : Answer := .ofExcept do
  let file := match r.field? "hex" with
    | some (.text h) => bytesOfHex h.toList
    | _ => Text.encodeUtf8 (textOf r "text")
  let (form, n) ← Wire.load file
  return .fields [("format", text (if form = .binary then "binary" else "text")),
    ("version", .value (.int n.version)), ("graph", .value (layers n.layers))]

end NetBridge.Service
