import NetBridge.Record.Folder
import NetBridge.Service.Answer
import NetBridge.Source.MxNet

/-!
# Requests on MXNet symbols

The graph of a symbol, and its conversion to a network.
-/

namespace NetBridge.Service

open Record Source

def graphEnds {α : Type} (g : Graph α) : List (String × Answer) :=
  [("input_layers", .value (texts g.inputs)), ("output_layers", .value (texts g.outputs)),
   ("topological_sort", .value (texts g.order))]

def symbolGraph (r : Value) : Answer := .ofExcept do
  let (g, log) ← MxNet.graphOf (r.fieldD "nodes").elems
  let rows ← g.vertices.values.mapM fun v => do
    let op ← orFault .key v.item.op
    return Value.list [.text v.name, .text op, texts v.sources, texts v.targets,
      v.item.settings]
  return .fields ([("nodes", .value (.list rows)), ("log", logged log)] ++ graphEnds g)

def storedArrays (r : Value) : Except Fault (Option (Table Tensor)) :=
  match r.field? "arg_params" with
  | none | some .none => .ok none
  | some args => (arraysOf (.record (args.fields ++ (r.fieldD "aux_params").fields))).map some

def symbolBuilder (r : Value) : Except Fault (Builder MxNet.Node MxNet.State) := do
  let arrays ← storedArrays r
  let sizes ← (r.fieldD "input_shape").elems.mapM Value.readWhole
  MxNet.start (r.fieldD "nodes").elems sizes arrays (inferredShapes r)

def padModeAnswer (b : Builder MxNet.Node MxNet.State) (name : String) : Answer :=
  let mode : MxNet.Convert String := do
    let v ← vertex name
    let k ← orFault .key ((← own).byName.find? name)
    MxNet.padMode v k
  match (mode.outcome b).1 with
  | .ok s => text s
  | .error f => .failed f

def convertSymbol (r : Value) : Answer := .ofExcept do
  let (out, b) := MxNet.convert.outcome (← symbolBuilder r)
  let modes : List (String × Answer) := match r.field? "pad_mode" with
    | some v => [("pad_mode", .list ((textsOf v).map (padModeAnswer b)))]
    | none => []
  return .record ([
    ("graph", .value (layers b.layers.toList)),
    ("weights", .value (weights b.weights)),
    ("data_format", .value b.own.layout),
    ("log", logged b.log)] ++ modes)
    (match out with
      | .ok _ => none
      | .error f => some f)

end NetBridge.Service
