import NetBridge.Prototxt.Build
import NetBridge.Prototxt.Layers

/-!
# Converting a net

A net description, with or without stored arrays, becomes a draft of a network and the arrays of its
layers.
-/

namespace NetBridge.Prototxt

structure Conversion where
  spec : Option NetSpec
  model : Option NetSpec := none
  target : String := "tensorflow"
  inputShape : Option (List Value) := none
  phase : String := "test"
  engine : Option Engine := none

def NetSpec.isTraining (n : NetSpec) : Except Fault Bool := do
  let kinds ← n.allLayers.mapM fun l => l.type.kind?
  return kinds.any isFeed

def Conversion.store (c : Conversion) (model : NetSpec) : Except Fault Store :=
  match c.engine, c.spec with
  | some e, some _ => .ok { arrays := e.params.entries, fourAxes := false }
  | _, _ => model.store

structure Plan where
  spec : NetSpec
  training : Bool
  inputShape : Option (List Value)
  store : Option Store := none

def Conversion.plan (c : Conversion) : Except Fault Plan :=
  match c.spec with
  | none => do
    let shape ← orFault (.report .conversion
      "if the graph prototxt is not provided, the input shape should be provided") c.inputShape
    let model ← orFault .kind c.model
    let store ← model.store
    return { spec := model.withoutBlobs, training := true, inputShape := some (.int 1 :: shape),
             store := some store }
  | some spec => do
    if ← spec.isTraining then
      let shape ← orFault (.report .conversion
        "the train_val.prototxt should be provided with the input shape") c.inputShape
      return { spec := spec, training := true, inputShape := some (.int 1 :: shape) }
    else return { spec := spec, training := false, inputShape := c.inputShape }

def loadArrays (c : Conversion) (p : Plan) (model : NetSpec) : NetRun Unit := do
  let store ← match p.store with
    | some s => pure s
    | none => do pure (← c.store model)
  injectAll store
  fuse scalingFusion
  prescaleAll
  let target := Text.lower c.target
  if target ≠ "caffe" && target ≠ "caffe2" then
    relayAll true
    nameAll

def Conversion.run (c : Conversion) : Except Fault Session := do
  let p ← c.plan
  let g ← build p.spec
    { inputShape := p.inputShape, training := p.training, phase := c.phase, engine := c.engine }
  let (out, s) := (match c.model with
    | none => pure ()
    | some model => loadArrays c p model : NetRun Unit).outcome { net := g }
  out
  return { s with log := s.log ++ [← s.net.table] }

def toDraft (g : Net) : Except Fault (Draft × LayerNames) := do
  let names := Table.ofList (g.nodes.map fun n => (n.name, n.name))
  let (ls, names) ← mapNodes g names g.members
  let name ← orFault .kind g.name
  return (.ofLayers (Text.pascal (Text.snake name)) ls, names)

def layerArrays (g : Net) (names : LayerNames) : Except Fault (Table Arrays) := do
  let entries ← (g.nodes.filter fun n => n.arrays.isSet).mapM fun n => do
    return (← names.get n.name .key, n.arrays)
  return Table.ofList entries

end NetBridge.Prototxt
