import NetBridge.Code.Outline
import NetBridge.Network.Assembly
import NetBridge.Service.Answer

/-!
# Requests on drafts and assemblies

Scripts that put a draft together and write it out, scripts that assemble a network by calls, and
small requests about pictures and saved classes.
-/

namespace NetBridge.Service

open Record

structure DraftDesk where
  made : Table DraftLayer := ∅
  draft : Draft := {}

namespace DraftDesk

def create (d : DraftDesk) (args : List Value) : Except Fault DraftDesk := do
  let name := argText args 0
  let l ← DraftLayer.create (argText args 1) (arg args 4).fields
  let l := { l with
    layer := { l.layer with name := name, inputs := textsOf (arg args 2) }
    outputs := textsOf (arg args 3) }
  return { d with made := d.made.insert name l }

def layer (d : DraftDesk) (name : String) : Except Fault DraftLayer := d.made.get name .key

def levels (f : Outline.Family) : Nat → List String → List String
  | k, [] => [Outline.importLine f k, Outline.classLine f k "C", Outline.setupLine k]
  | k, m :: rest =>
    let k := if m = "indent" then k + 1 else k - 1
    Outline.statement k "x" :: levels f k rest

def inspect (d : DraftDesk) (word : String) (args : List Value) : Except Fault Answer := do
  let name := argText args 0
  match word with
  | "get" => return text (← d.draft.get name).layer.op
  | "inputs" => return names (d.draft.sources (← d.layer name))
  | "sorted" => return names d.draft.sorted
  | "graph_def" =>
    return .value (.list [.int d.draft.version, layers d.draft.network.layers])
  | "emit" => return text (← Outline.write d.draft (← Outline.Family.ofName name))
  | "indent" => return names (levels (← Outline.Family.ofName name) 0 (textsOf (arg args 1)))
  | "dump" =>
    let family ← Outline.Family.ofName name
    let file := Text.snake d.draft.name
    return names [file ++ ".py", file ++ ".npy", ← Outline.write d.draft family]
  | "json" => return text (Document.json d.draft.network)
  | "drawer" =>
    Outline.draw name
    return .value .none
  | "is_web_page" => return truth (Outline.isWebPage name)
  | _ => throw .value

def step (d : DraftDesk) (word : String) (args : List Value) : Step DraftDesk :=
  let name := argText args 0
  match word with
  | "node" => .attempt d (d.create args)
  | "graph" => .attempt d do
    let ls ← (textsOf (arg args 1)).mapM d.layer
    let version ← match arg args 2 with
      | .none => pure 0
      | v => v.toInt
    return { d with draft := .ofLayers name ls version }
  | "add" => .attempt d do return { d with draft := ← d.draft.add (← d.layer name) }
  | "remove" =>
    match d.draft.remove name with
    | .ok (l, draft) => { outcome := .ok (text l.layer.name), state := { d with draft := draft } }
    | .error f => .look d (.error f)
  | _ => .look d (d.inspect word args)

end DraftDesk

def draftScript (r : Value) : Answer := scripted DraftDesk.step {} r

def assemblyStep (a : Assembly) (word : String) (args : List Value) : Step Assembly :=
  match word with
  | "do" => .ofRun (Assembly.call (argText args 0) (arg args 1).elems (arg args 2).fields) a .value
  | "state" => .look a (.ok (.fields [
      ("layers", .value (.record a.layers.entries)), ("output", .value a.output),
      ("calls", .value (.list a.calls)), ("trainable", .value a.trainable)]))
  | _ => .look a (.error .value)

def assemblyScript (r : Value) : Answer := .ofExcept do
  return scripted assemblyStep (← Assembly.start (r.fieldD "kw").fields) r

def fallbackWarning : String :=
  let rule := Text.times "-" 60
  Text.join "\n" ["", rule, "    WARNING: PyCaffe not found!",
    "    Falling back to a pure protocol buffer implementation.",
    "    * Conversions will be drastically slower.", "    * This backend is UNTESTED!", rule, "", ""]

def saveByClass (module defined data : String) : Answer :=
  if Text.pascal module = defined then
    .fields [("dump", text (data ++ "|out/dir")), ("made", truth true),
      ("calls", .value (.list [.list [.text "Net.dump", texts [data, "out/dir"], .record []]]))]
  else .record [("calls", .value (.list []))] (some .property)

def smallRequest (r : Value) : Answer :=
  let page : List (String × Answer) := match r.field? "png" with
    | some (.text hex) => [("html", text (Outline.page (bytesOfHex hex.toList)))]
    | _ => []
  let warning : List (String × Answer) :=
    if (r.fieldD "fallback_warning").isSet then [("stderr", text fallbackWarning)] else []
  let saved := match r.field? "saver" with
    | some (.text module) => saveByClass module (textOf r "class") (textOf r "data")
    | _ => .fields []
  match saved with
  | .record fs fault => .record (page ++ warning ++ fs) fault
  | a => a

end NetBridge.Service
