/-!
# Faults

A step of a conversion either succeeds or stops with a `Fault`. A `Run` keeps its state when it stops,
so a half-built network and the lines already logged can still be shown.
-/

namespace NetBridge

inductive Cause where
  | kind
  | position
  | key
  | property
  | value
  | axis
  | casting
  | zeroDivisor
  | unassigned
  | undefined
  | condition
  | unsupported
  | conversion
  | resource
  | missingFile
  | unreachable
  | incomplete
  | encoding
  | missingModule
  | malformedModule
  | truncated
  | unreadable
  | exit (status : Option Int)
  deriving DecidableEq, Repr

structure Fault where
  cause : Cause
  message : Option String := none
  deriving DecidableEq, Repr

namespace Fault

def kind : Fault := { cause := .kind }

def position : Fault := { cause := .position }

def key : Fault := { cause := .key }

def property : Fault := { cause := .property }

def value : Fault := { cause := .value }

def condition : Fault := { cause := .condition }

def report (cause : Cause) (message : String) : Fault :=
  { cause := cause, message := some message }

def silent (cause : Cause) : Fault := report cause ""

end Fault

abbrev Run (σ : Type) (α : Type) := ExceptT Fault (StateM σ) α

namespace Run

def outcome {σ α : Type} (r : Run σ α) (s : σ) : Except Fault α × σ :=
  StateT.run (ExceptT.run r) s

def require {σ : Type} (c : Bool) (f : Fault := Fault.condition) : Run σ Unit :=
  if c then pure () else throw f

end Run

def require (c : Bool) (f : Fault := Fault.condition) : Except Fault Unit :=
  if c then .ok () else .error f

def orFault {α : Type} (f : Fault) : Option α → Except Fault α
  | some a => .ok a
  | none => .error f

end NetBridge
