import NetBridge.Table
import NetBridge.Value.Basic

/-!
# Assemblies

A network can be put together by calling one method a layer. Every call draws a fresh name, whether it
is used or not. The methods of real layers are left to the frameworks: a call of one checks its
arguments and stops.
-/

namespace NetBridge

def layerSignature? : String → Option Signature
  | "conv" => some { params := ["input", "k_h", "k_w", "c_o", "s_h", "s_w", "p_h", "p_w", "name",
      "group", "biased"], required := 9 }
  | "deconv" => some { params := ["input", "c_o", "k_h", "k_w", "s_h", "s_w", "p_h", "p_w", "name"]
                       required := 9 }
  | "relu" | "sigmoid" | "softmax" => some { params := ["input", "name"], required := 2 }
  | "max_pool" | "avg_pool" =>
    some { params := ["input", "k_h", "k_w", "s_h", "s_w", "p_h", "p_w", "name"], required := 8 }
  | "lrn" => some { params := ["input", "local_size", "alpha", "beta", "name", "bias"], required := 5 }
  | "concat" => some { params := ["inputs", "axis", "name"], required := 3 }
  | "add" => some { params := ["inputs", "name"], required := 2 }
  | "fc" => some { params := ["input", "num_out", "name"], required := 3 }
  | "batch_normalization" =>
    some { params := ["input", "name", "epsilon", "scale_offset"], required := 2 }
  | "dropout" => some { params := ["input", "keep_prob", "name"], required := 3 }
  | "crop" => some { params := ["inputs", "offset", "name"], required := 3 }
  | "probe" => some { params := ["inputs", "name", "extra"], required := 2 }
  | _ => none

def methodSignature? : String → Option Signature
  | "load" => some { params := ["data_path", "session", "ignore_missing"], required := 2 }
  | "input" => some { params := ["shape", "name"], required := 2 }
  | "get_output" | "setup" => some { params := [], required := 0 }
  | "get_unique_name" => some { params := ["prefix"], required := 1 }
  | _ => none

structure Assembly where
  drawn : Nat := 0
  layers : Table Value := ∅
  output : Value := .none
  calls : List Value := []
  trainable : Value := .bool false

namespace Assembly

def leftOpen : Fault := .report .unsupported "Must be implemented by the subclass"

def start (options : List (String × Value)) : Except Fault Assembly :=
  match options with
  | [] => .ok {}
  | [("trainable", v)] => .ok { trainable := v }
  | _ => .error .kind

def draw (start : String) : Run Assembly String := do
  modify fun a => { a with drawn := a.drawn + 1 }
  return start ++ "_" ++ toString (← get).drawn

def probe (inputs name extra : Value) : Run Assembly Value := do
  modify fun a => { a with calls := a.calls ++ [.list [inputs, name, extra]] }
  match name with
  | .text s => return .text (s ++ "!")
  | _ => throw .kind

def makeLayer (method : String) (s : Signature) (args : List Value) (named : List (String × Value)) :
    Run Assembly Value := do
  let fresh ← draw method
  let named := if named.any (·.1 == "name") then named else named ++ [("name", .text fresh)]
  let inputs ← match args with
    | [] => throw .condition
    | [v] => pure v
    | vs => pure (.list vs)
  Run.require (s.fits 1 (named.map (·.1))) .kind
  if method ≠ "probe" then throw leftOpen
  let given : Value := .record named
  let out ← probe inputs (given.fieldD "name") (given.fieldD "extra")
  let key := (given.fieldD "name").display
  modify fun a => { a with layers := a.layers.insert key out, output := out }
  return out

def call (method : String) (args : List Value) (named : List (String × Value)) : Run Assembly Value := do
  match layerSignature? method with
  | some s => makeLayer method s args named
  | none =>
    let s ← orFault .property (methodSignature? method)
    Run.require (s.fits args.length (named.map (·.1))) .kind
    match method with
    | "setup" =>
      modify fun a => { a with calls := [], drawn := 0 }
      return .none
    | "get_unique_name" =>
      let start := (args.head?.getD ((Value.record named).fieldD "prefix")).display
      return .text (← draw start)
    | _ => throw leftOpen

end Assembly

end NetBridge
