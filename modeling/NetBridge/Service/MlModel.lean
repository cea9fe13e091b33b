import NetBridge.Record.MlModel
import NetBridge.Service.Code
import NetBridge.Target.CoreMl

/-!
# Requests on Core ML models

Conversions from and to Core ML models, and the shapes of their features.
-/

namespace NetBridge.Service

open Record Source

def loadedModel (r : Value) : Except Fault CoreMl.Model := do
  require (!(r.fieldD "not_a_path").isSet)
  let m ← orFault .condition (← mlModelOf (r.fieldD "spec"))
  require (!(r.fieldD "not_a_model").isSet)
    (.report .kind "Coreml layer of type <class 'types.SimpleNamespace'> is not supported.")
  return m

def convertMlModel (r : Value) : Answer :=
  match loadedModel r with
  | .error f => .record [("log", text "")] (some f)
  | .ok m =>
    let (g, log) := CoreMl.graphOf m
    let shapes := Table.ofList ((r.fieldD "shapes").fields.map fun (k, v) => (k, v.elems))
    let b : Builder CoreMl.Item CoreMl.State := { graph := g, log := log, loaded := true, own := shapes }
    let (out, b) := CoreMl.convert.outcome b
    .record (builderFields b b.log) (faultOf out)

def preparationNames : List String :=
  ["is_bgr", "red_bias", "green_bias", "blue_bias", "gray_bias", "image_scale"]

def modelSettings : List String :=
  preparationNames ++ ["input_names", "output_names", "image_input_names", "class_labels",
    "predicted_feature_name", "predicted_probabilities_output"]

def modelOptions (kw : List (String × Value)) (files : List (String × String)) :
    Except Fault Target.CoreMl.Options := do
  require (kw.all fun f => modelSettings.contains f.1) .kind
  let given := Value.record kw
  let base : Target.CoreMl.Options := {}
  return {
    preparation := base.preparation.map fun (k, v) => (k, (given.field? k).getD v)
    labels := given.fieldD "class_labels"
    feature := given.fieldD "predicted_feature_name"
    probabilities := (given.field? "predicted_probabilities_output").getD base.probabilities
    files := files }

abbrev ModelOutcome :=
  Except Fault (List Target.CoreMl.Feature × List Target.CoreMl.Feature) × Target.CoreMl.State

def buildModel (network : Option Network) (weights : Option Weights) (networkFile weightFile : String)
    (options : Except Fault Target.CoreMl.Options) : ModelOutcome :=
  match network with
  | none =>
    (.error (.report .value ("IR architecture file [" ++ networkFile ++ "] is not found.")),
      { scope := { graph := { network := {} } } })
  | some n =>
    let start : Target.CoreMl.State := { scope := Target.startScope n weights "test" }
    if weights.isNone then
      (.error (.report .value ("IR weight file [" ++ weightFile ++ "] is not found.")), start)
    else
      match options with
      | .error f => (.error f, start)
      | .ok o => (Target.CoreMl.convert o).outcome start

def emitModel (r : Value) : Answer := .ofExcept do
  let network ← match r.fieldD "graph" with
    | .none => pure none
    | g => do pure (some (← networkOf g))
  let weights ← match r.fieldD "weights" with
    | .none => pure none
    | w => do pure (some (← weightsOf w))
  let files := match r.fieldD "labels" with
    | .text s => [("labels.txt", s)]
    | _ => []
  let options := modelOptions (r.fieldD "kw").fields files
  let (out, s) := buildModel network weights "none.pb" "w.npy" options
  let left := [("calls", callsAnswer s.calls), ("log", logged s.scope.log)]
  match out with
  | .ok (inputs, outputs) =>
    return .fields ([("inputs", .value (Target.CoreMl.featuresValue inputs)),
      ("outputs", .value (Target.CoreMl.featuresValue outputs))] ++ left)
  | .error f => return .record left (some f)

def featureShapes (r : Value) : Answer :=
  .list ((r.fieldD "shapes").elems.map fun s => .ofOutcome do
    return .ints (← Target.CoreMl.featureShape (← s.toInts)))

end NetBridge.Service
