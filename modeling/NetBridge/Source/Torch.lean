import NetBridge.Network.Layer

/-!
# Torch models

A Torch model does not tell its layers. It can be run on inputs of given shapes, which gives the shapes
of its outputs, and the arrays of its modules can be gathered. There is no conversion to a network.
-/

namespace NetBridge.Source.Torch

/-! ## Running a model -/

inductive Outputs where
  | single (shape : List Int)
  | several (shapes : List (List Int))

structure Model where
  outputs : Outputs

def Model.run (m : Model) (inputs : List (List Int)) (batched : Bool := false) :
    Except Fault (Call × List (List Int)) := do
  let inputs := if batched then inputs.map (1 :: ·) else inputs
  let given ← match inputs with
    | [] => throw .position
    | [s] => pure (Value.ints s)
    | ss => pure (.list (ss.map Value.ints))
  let shapes := match m.outputs with
    | .single s => [s]
    | .several ss => ss
  return ({ name := "forward", args := [given] }, if batched then shapes.map (·.drop 1) else shapes)

def Model.load (m : Model) (sizes : Value) : List Call × Except Fault (List (List Int)) :=
  let ready : Call := { name := "evaluate" }
  let outcome : Except Fault (Call × List (List Int)) := do
    let ns ← (← sizes.elements).mapM Value.readWhole
    m.run [1 :: ns]
  match outcome with
  | .ok (run, shapes) => ([ready, run], .ok shapes)
  | .error f => ([ready], .error f)

/-! ## Gathering arrays -/

structure Gathered where
  weights : Weights := ∅
  log : List String := []

abbrev Gather := Run Gathered

def note (line : String) : Gather Unit := modify fun g => { g with log := g.log ++ [line] }

def arrayNames : List String := ["weight", "bias", "running_mean", "running_var"]

def gatherArrays (name : String) (level : Nat) (fields : List (String × Value)) : Gather Unit := do
  modify fun g => { g with weights := g.weights.insert name ∅ }
  arrayNames.forM fun p => do
    match (fields.lookup p).getD .none with
    | .array t =>
      if t.rank > 0 then
        modify fun g =>
          { g with weights := g.weights.insert name ((g.weights.findD name ∅).insert p (.array t)) }
        note (Text.times "    " level ++ name ++ "." ++ p ++ " shape " ++
          intTuple (t.shape.map Int.ofNat) ++ " " ++ t.elem.name)
    | _ => pure ()

mutual

def gather (name : String) (level : Nat) : Value → Gather Unit
  | .record fs => do
    gatherArrays name level fs
    gatherFields name level fs
  | _ => gatherArrays name level []

def gatherFields (name : String) (level : Nat) : List (String × Value) → Gather Unit
  | [] => pure ()
  | (k, v) :: fs => do
    if k = "conv_nets" then gatherPart (name ++ ":conv_nets:") (level + 1) v
    gatherFields name level fs

def gatherPart (start : String) (level : Nat) : Value → Gather Unit
  | .list vs => gatherAll start level 0 vs
  | .none => pure ()
  | _ => throw .kind

def gatherAll (start : String) (level i : Nat) : List Value → Gather Unit
  | [] => pure ()
  | v :: vs => do
    gather (start ++ toString i) level v
    gatherAll start level (i + 1) vs

end

def fieldOf (v : Value) (name : String) : Except Fault Value := orFault .property (v.field? name)

def gatherParts (v : Value) : Gather Unit := do
  let parts ← fieldOf v "modules"
  if !parts.isNone then
    note ("    submodule = " ++ toString (← parts.length) ++ "#")
    for (part, j) in (← parts.elements).zipIdx do
      note ("        layer [" ++ (← fieldOf part "typename").display ++ "]")
      let name := (← (← fieldOf v "search_flag").toText) ++ ":" ++ toString j
      gather name 2 part
      note "\n"

def gatherModel (modules : List Value) : Gather Unit := do
  for (v, i) in modules.zipIdx do
    if !v.isNone then
      note ("Find layer #" ++ toString i ++ " : " ++ (← fieldOf v "typename").display)
      match v.field? "search_flag" with
      | some flag => note ("    name = " ++ flag.display)
      | none => pure ()
      gatherParts v
      note "\n"
  note "-------------------------------------------------"

end NetBridge.Source.Torch
