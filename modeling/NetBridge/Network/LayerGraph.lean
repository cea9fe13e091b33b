import NetBridge.Network.Layer
import NetBridge.Graph.Basic

/-!
# The graph of a network

A network read as a graph: one vertex a layer name, an edge from every layer to those that read it.
Layers without any edge are left out. Once the graph is built its inputs are handed out only once.
-/

namespace NetBridge

structure LayerGraph where
  network : Network
  graph : Graph Layer := {}
  built : Bool := false
  deriving Inhabited

namespace LayerGraph

def edges (layers : List Layer) : List (String × String) :=
  layers.flatMap fun l => l.inputs.map fun i => (i, l.name)

def dropIsolated (g : Graph Layer) : Graph Layer :=
  { g with vertices := g.vertices.filter fun _ v => !v.sources.isEmpty || !v.targets.isEmpty }

def place (g : Graph Layer) (layers : List Layer) : Graph Layer :=
  layers.foldl (fun g l => g.add l.name l) g

def wire (g : Graph Layer) (layers : List Layer) : Graph Layer × List String :=
  let (g, log) := (place g layers).connectAll (edges layers)
  (dropIsolated g, log)

def build (g : LayerGraph) : Except Fault Unit × LayerGraph × List String :=
  let (wired, log) := wire g.graph g.network.layers
  if g.built then
    if wired.sourceless.isEmpty then
      let outputs := wired.outputs ++ wired.targetless
      (.error .kind, { g with graph := { wired with outputs := outputs } }, log)
    else (.error .property, { g with graph := wired }, log)
  else
    let done := wired.finish
    let inputs := done.inputs.filter fun n =>
      match done.vertices.find? n with
      | some v => v.item.op != "Constant"
      | none => true
    (.ok (), { g with graph := { done with inputs := inputs }, built := true }, log)

def takeInputs (g : LayerGraph) : List String × LayerGraph :=
  (g.graph.inputs, if g.built then { g with graph := { g.graph with inputs := [] } } else g)

def sort (g : LayerGraph) : Except Fault LayerGraph :=
  if g.built then .error .kind
  else .ok { g with graph := { g.graph with order := g.graph.orderOf g.graph.inputs } }

def ofNetwork (n : Network) : LayerGraph × List String :=
  let (_, g, log) := build { network := n }
  (g, log)

end LayerGraph

end NetBridge
