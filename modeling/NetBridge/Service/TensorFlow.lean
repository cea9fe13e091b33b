import NetBridge.Record.Folder
import NetBridge.Service.Answer
import NetBridge.Source.Checkpoint

/-!
# Requests on TensorFlow graphs

Conversions of graphs with a checkpoint, and of frozen graphs.
-/

namespace NetBridge.Service

open Record Source

def checkpointOf (r : Value) : Except Fault (Option (Table Tensor)) :=
  match r.fieldD "checkpoint" with
  | .none => .ok none
  | v => (arraysOf v).map some

def loadingLog (checkpoint : Option (Table Tensor)) : List String :=
  ["Tensorflow model file [m.pb] loaded successfully."] ++
    match checkpoint with
    | none => []
    | some t => ["Tensorflow checkpoint file [m.ckpt] loaded successfully. [" ++ toString t.size ++
        "] variables loaded."]

def convertCheckpoint (r : Value) : Answer := .ofExcept do
  let nodes ← (r.fieldD "nodes").elems.mapM layerOf
  let checkpoint ← checkpointOf r
  let (out, b) := Checkpoint.convert.outcome (Checkpoint.start nodes checkpoint)
  return .record (builderFields b (loadingLog checkpoint ++ b.log)) (faultOf out)

def listed (v : Value) (default : String) : List String :=
  match v with
  | .text s => Text.split ',' s
  | _ => [default]

def convertFrozen (r : Value) : Answer := .ofExcept do
  let nodes ← (r.fieldD "nodes").elems.mapM layerOf
  let told := { (← toldOf r) with inputs := listed (r.fieldD "in") "input" }
  match Frozen.start told nodes (r.fieldD "input_shape").elems with
  | .error f => return .record [("log", text "")] (some f)
  | .ok b =>
    let (out, b) := Frozen.convert.outcome b
    let log := b.log.filter fun line => Text.startsWith line "Tensorflow has not"
    return .record (builderFields b log) (faultOf out)

end NetBridge.Service
