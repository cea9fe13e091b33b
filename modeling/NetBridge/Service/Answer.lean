import NetBridge.Record.Network
import NetBridge.Source.Builder

/-!
# Answers

A request is answered by a value, by a list of answers, or by named answers together with the fault
that ended the work. The steps of a script are answered each on its own: what a failed step has
changed stays changed.
-/

namespace NetBridge.Service

inductive Answer where
  | value (v : Value)
  | list (items : List Answer)
  | record (fields : List (String × Answer)) (fault : Option Fault)
  deriving Inhabited

namespace Answer

instance : Coe Value Answer := ⟨.value⟩

def fields (fs : List (String × Answer)) : Answer := .record fs none

def failed (f : Fault) : Answer := .record [] (some f)

def ofOutcome : Except Fault Value → Answer
  | .ok v => fields [("ok", v)]
  | .error f => failed f

def ofExcept : Except Fault Answer → Answer
  | .ok a => a
  | .error f => failed f

end Answer

def text (s : String) : Answer := .value (.text s)

def logText (lines : List String) : String := String.join (lines.map fun l => l ++ "\n")

def logged (lines : List String) : Answer := text (logText lines)

/-! ## Conversions -/

open Record Source

def builderFields {α σ : Type} (b : Builder α σ) (log : List String) : List (String × Answer) :=
  [("graph", .value (layers b.layers.toList)),
   ("weights", .value (weights b.weights)),
   ("weight_loaded", .value (.bool b.loaded)),
   ("log", logged log)]

def faultOf {α : Type} : Except Fault α → Option Fault
  | .ok _ => none
  | .error f => some f

def callsAnswer (cs : List Call) : Answer := .value (.list (cs.map Call.value))

/-! ## Scripts -/

structure Step (σ : Type) where
  outcome : Except Fault Answer
  state : σ
  log : List String := []

namespace Step

variable {σ : Type}

def answer (s : Step σ) : Answer :=
  let log : List (String × Answer) := if s.log.isEmpty then [] else [("log", logged s.log)]
  match s.outcome with
  | .ok a => .record (("ok", a) :: log) none
  | .error f => .record log (some f)

def look (s : σ) (out : Except Fault Answer) : Step σ := { outcome := out, state := s }

def change (s : σ) : Step σ := { outcome := .ok (.value .none), state := s }

def attempt (s : σ) (r : Except Fault σ) : Step σ :=
  match r with
  | .ok s' => change s'
  | .error f => look s (.error f)

def ofRun {α : Type} (r : Run σ α) (s : σ) (answer : α → Answer) : Step σ :=
  let (out, s') := r.outcome s
  { outcome := out.map answer, state := s' }

end Step

def runScript {σ : Type} (step : σ → String → List Value → Step σ) : σ → List Value → List Answer
  | _, [] => []
  | s, v :: rest =>
    let r := match v.elems with
      | .text word :: args => step s word args
      | _ => Step.look s (.error .value)
    r.answer :: runScript step r.state rest

def scripted {σ : Type} (step : σ → String → List Value → Step σ) (s : σ) (r : Value) : Answer :=
  .list (runScript step s (r.fieldD "steps").elems)

def truth (b : Bool) : Answer := .value (.bool b)

def names (ns : List String) : Answer := .value (texts ns)

def argText (args : List Value) (i : Nat) : String :=
  match args[i]? with
  | some (.text s) => s
  | _ => ""

def arg (args : List Value) (i : Nat) : Value := args.getD i .none

end NetBridge.Service
