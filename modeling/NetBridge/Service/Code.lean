import NetBridge.Service.Answer
import NetBridge.Target.Generator

/-!
# Code requests

A request names the target, the network, and optionally the weights and the phase; the answer is the
code, the log, and the weights as the code expects them.
-/

namespace NetBridge.Service

open Record Code Target

def emit (r : Value) : Answer := .ofExcept do
  let target ← orFault .value (CodeTarget.ofName? (textOf r "target"))
  let network ← networkOf (r.fieldD "graph")
  let weights ← match r.field? "weights" with
    | some .none => pure none
    | some w => do pure (some (← weightsOf w))
    | none => pure none
  let phase := match r.fieldD "phase" with
    | .text p => p
    | _ => "test"
  let taken := if target.takesWeights then weights else none
  let (out, s) := (target.code "out/mx.npy").outcome (startScope network taken phase)
  let code ← out
  let arrays : Value :=
    if target = .mxnet then .record s.arrays.entries else Record.weights s.weights
  let extra : List (String × Answer) := if weights.isSome then [("weights", arrays)] else []
  return .fields ([("code", text code), ("log", logged s.log)] ++ extra)

end NetBridge.Service
