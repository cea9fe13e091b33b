import NetBridge.Record.Folder
import NetBridge.Service.Answer

/-!
# Requests on Torch models

Running a model on inputs of given shapes, loading one, and gathering the arrays of its modules.
-/

namespace NetBridge.Service

open Record Source

def runModel (m : Torch.Model) (r : Value) : Answer :=
  let outcome : Except Fault (Call × List (List Int)) := do
    m.run (← (r.fieldD "forward").elems.mapM Value.toInts) (r.fieldD "is_batch").isSet
  match outcome with
  | .ok (c, shapes) =>
    .fields [("output_shapes", .value (.list (shapes.map Value.ints))), ("calls", callsAnswer [c])]
  | .error f => .record [("calls", callsAnswer [])] (some f)

def missingModel (path : String) : Fault :=
  .report .value ("Torch7 model file [" ++ path ++ "] is not found.")

def loadModel (m : Torch.Model) (r : Value) : Answer :=
  if (r.fieldD "missing").isSet then .record [("calls", callsAnswer [])] (some (missingModel "m.t7"))
  else
    let (calls, out) := m.load (r.fieldD "input_shape")
    match out with
    | .ok _ => .record [("weight_loaded", .value (.bool true)), ("calls", callsAnswer calls)]
        (some { cause := .condition })
    | .error f => .record [("calls", callsAnswer calls)] (some f)

def torchModel (r : Value) : Answer := .ofExcept do
  let m : Torch.Model := ⟨← outputsOf (r.fieldD "result")⟩
  return if (r.field? "forward").isSome then runModel m r else loadModel m r

def torchArrays (r : Value) : Answer := .ofExcept do
  let modules ← objectValues (r.fieldD "modules").elems
  let (out, g) := (Torch.gatherModel modules).outcome {}
  match out with
  | .ok _ => return .fields [("log", logged g.log), ("weights", .value (weights g.weights))]
  | .error f => return .record [("log", logged g.log)] (some f)

end NetBridge.Service
