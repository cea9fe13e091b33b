import NetBridge.Job.Basic
import NetBridge.Record.Model
import NetBridge.Record.Net

/-!
# Folders as records

The files that a job works on, as a record: a field for every kind of file, which has a fixed name.
-/

namespace NetBridge.Record

open Job Source

variable (v : Value)

def arraysOf : Except Fault (Table Tensor) := do
  return Table.ofList (← v.fields.mapM fun (k, t) => do return (k, ← tensorOf t))

def tensorShapes : Except Fault (Table (List Int)) := do
  let es ← v.fields.mapM fun (k, s) => do
    let dims ← s.elems.mapM fun d => (if d.isNone then .ok (-1) else d.toInt : Except Fault Int)
    return (k, dims)
  return Table.ofList es

def inferredShapes : Table (List Value) :=
  Table.ofList ((v.fieldD "shapes").fields.map fun (k, s) => (k, s.elems))

def countingReel (n : Nat) : Config.Reel Float :=
  { numbers := ((List.range n).map Float.ofNat).toArray, place := 1 }

/-- A count; anything else counts as nothing. -/
def tallyOf : Nat := (v.toInt.toOption.getD 0).toNat

def outputsOf : Except Fault Torch.Outputs := do
  match v.elems with
  | .list _ :: _ => return .several (← v.elems.mapM Value.toInts)
  | _ => return .single (← v.toInts)

def toldOf : Except Fault Frozen.Told := do
  return { inputs := [], outputShapes := ← tensorShapes (v.fieldD "output_shapes")
           inputShapes := ← tensorShapes (v.fieldD "input_shapes") }

def filesOf (files : Value) (name : String) (v : Value) : Except Fault (List (String × Content)) := do
  match name with
  | "graph" => return [("ir.pb", .network (← networkOf v))]
  | "weights" => return [("w.npy", .weights (← weightsOf v))]
  | "net" => return [("net.prototxt", .net (netSpec v))]
  | "blobs" => return [("net.caffemodel", .net (withBlobs (netSpec (files.fieldD "net")) v))]
  | "cfg" => return [("n.cfg", .text v.display)]
  | "floats" => return [("n.weights", .numbers (countingReel (tallyOf v)))]
  | "mxnet" => return [("m-symbol.json", .symbol (v.fieldD "nodes").elems (inferredShapes v))]
  | "keras" =>
    let m ← modelOf v
    return [("m.json", .model m), ("m.h5", .model m)]
  | "tf" => return [("m.pb", .graph (← (v.fieldD "nodes").elems.mapM layerOf) (← toldOf v))]
  | "cntk" =>
    return [("m.model", .functions (← objectsOf (v.fieldD "objects"))
      ((textsOf (v.fieldD "outputs")).map .handle))]
  | "torch" => return [("m.t7", .runnable ⟨← outputsOf (v.fieldD "result")⟩)]
  | "text" => return v.fields.map fun (k, s) => (k, .text s.display)
  | _ => return []

def checkpointOf (files : Value) : Except Fault (Option (Table Tensor)) := do
  let symbol := files.fieldD "mxnet"
  match symbol.fieldD "arg_params", (files.fieldD "tf").fieldD "checkpoint" with
  | .none, .none => return none
  | .none, v => return some (← arraysOf v)
  | v, _ => return some (← arraysOf (.record (v.fields ++ (symbol.fieldD "aux_params").fields)))

def folderOf (files : Value) : Except Fault Folder := do
  let found ← files.fields.mapM fun (k, v) => if v.isNone then .ok [] else filesOf files k v
  let empty : Folder := { checkpoint := ← checkpointOf files }
  return found.flatten.foldl (fun f (path, c) => f.put path c) empty

def content (opened : Bool) : Content → Value
  | .bytes bs => .text ((Text.decodeUtf8 bs).getD "")
  | .network n => layers n.layers
  | .weights w => weights w
  | .arrays t => .record t.entries
  | .document style v => if opened then v else .text (Json.document style v)
  | _ => .none

end NetBridge.Record
