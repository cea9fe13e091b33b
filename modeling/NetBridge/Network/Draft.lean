import NetBridge.Network.Layer
import NetBridge.Graph.Basic

/-!
# Drafts of networks

While a network is put together its layers also know the names of their outputs. A reference to an
output is the name of a layer and the number of the output, with a colon between.
-/

namespace NetBridge

structure DraftLayer where
  layer : Layer
  outputs : List String := []
  deriving Inhabited

structure Draft where
  name : String := ""
  layers : Table DraftLayer := ∅
  version : Int := 0
  deriving Inhabited

namespace DraftLayer

def create (op : String) (attrs : List (String × Value)) : Except Fault DraftLayer :=
  match Layer.assignAll .prototxt { op := op } attrs with
  | (.ok _, l) => .ok { layer := l }
  | (.error f, _) => .error f

end DraftLayer

namespace Draft

def ofLayers (name : String) (ls : List DraftLayer) (version : Int := 0) : Draft :=
  { name := name, layers := Table.ofList (ls.map fun l => (l.layer.name, l)), version := version }

variable (d : Draft)

def get (name : String) : Except Fault DraftLayer := d.layers.get name .key

def add (l : DraftLayer) : Except Fault Draft := do
  require (!d.layers.contains l.layer.name)
  return { d with layers := d.layers.insert l.layer.name l }

def remove (name : String) : Except Fault (DraftLayer × Draft) := do
  let l ← d.get name
  return (l, { d with layers := d.layers.erase name })

def sources (l : DraftLayer) : List String :=
  (l.layer.inputs.map Text.referent).filter d.layers.contains

def sorted : List String :=
  DepthFirst.order (fun n => (d.layers.find? n).elim [] d.sources) d.layers.size d.layers.keys

def network : Network :=
  { layers := d.layers.values.map (·.layer), version := d.version }

end Draft

end NetBridge
