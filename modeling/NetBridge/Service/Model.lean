import NetBridge.Network.Scaling
import NetBridge.Record.Model
import NetBridge.Service.Answer

/-!
# Requests on models of objects

Conversions of models that a framework loads as objects, and the scaling layer.
-/

namespace NetBridge.Service

open Record Source

inductive ModelSource where
  | file
  | description (weights : Option Bool)
  | other

def modelSource (r : Value) : ModelSource :=
  match r.fieldD "how" with
  | .text "json" =>
    match r.fieldD "weights_file" with
    | .text s => .description (some (s = "present"))
    | _ => .description none
  | .text _ => .other
  | _ => .file

def ModelSource.loading : ModelSource → Except Fault (List String × List Call × Bool)
  | .file => .ok ([], [], true)
  | .description none => .ok ([], [], false)
  | .description (some true) =>
    .ok (["Network file [m.json] and [m.w] is loaded successfully."],
      [{ name := "load_weights", args := [.text "m.w"] }], true)
  | .description (some false) => .ok (["Warning: Weights File [m.w] is not found."], [], false)
  | .other => .error .condition

def convertModel (r : Value) : Answer :=
  let calls (cs : List Call) : String × Answer := ("calls", callsAnswer cs)
  match (modelSource r).loading with
  | .error f => .record [("log", text ""), calls []] (some f)
  | .ok (log, made, loaded) =>
    match modelOf (r.fieldD "model") >>= Keras.start loaded with
    | .error f => .record [("log", logged log), calls made] (some f)
    | .ok b =>
      let (out, b) := Keras.convert.outcome b
      let made := if out.toBool then made ++ [{ name := "clear_session" }] else made
      .record (builderFields b (log ++ b.log) ++ [calls made]) (faultOf out)

def functionBuilder (r : Value) : Except Fault (Builder Cntk.Item Cntk.Objects) := do
  if (r.fieldD "missing").isSet then
    throw (.report .value "Cntk model [m.model] can not be found!")
  let os ← objectsOf (r.fieldD "objects")
  Cntk.start os ((textsOf (r.fieldD "outputs")).map .handle)

def convertFunction (r : Value) : Answer :=
  match functionBuilder r with
  | .error f => .record [("log", text "")] (some f)
  | .ok b =>
    let (out, b) := Cntk.convert.outcome b
    .record (builderFields b b.log) (faultOf out)

def scaleRequest (r : Value) : Answer := .ofExcept do
  let layer := Scaling.ofSettings (r.fieldD "kw").fields
  let b ← layer.build (r.fieldD "input_shape").elems
  let weights := b.factor.toList ++ b.offset.toList
  let added := weights.map fun w => Value.list [.text w.name, .list [b.size], w.start]
  let given (name : String) (w : Option Scaling.Weight) : Except Fault (Option Tensor) :=
    match r.field? name with
    | some t => (tensorOf t).map some
    | none => .ok (w.map (·.value))
  let called ← match r.field? "inputs" with
    | none => pure []
    | some t => do
      let out ← layer.apply (← given "gamma" b.factor) (← given "beta" b.offset) (← tensorOf t)
      pure [("call", Answer.value (.array out))]
  return .fields ([
    ("added", .value (.list added)),
    ("spec", .value (.list [.int b.shape.length, .record [(layer.axis.display, b.size)]])),
    ("config", .value (.record layer.settings)),
    ("output_shape", .value (.list b.shape))] ++ called)

end NetBridge.Service
