import NetBridge.Job.Convert
import NetBridge.Job.Dump
import NetBridge.Job.Fetch
import NetBridge.Record.Folder
import NetBridge.Service.Answer

/-!
# Requests for jobs

Requests that read command lines and do the jobs they ask for, in a folder that the request gives.
-/

namespace NetBridge.Service

open Record CommandLine Job

/-! ## Command lines -/

def commandOf? : String → Option Command
  | "convertToIR" => some importCommand
  | "IRToCode" => some codeCommand
  | "IRToModel" => some packCommand
  | "convert" => some convertCommand
  | "dump_code" => some dumpCommand
  | _ => none

variable (r : Value)

def wordsOf (name : String) : List String := (r.fieldD name).elems.map Value.display

def temporaryName : String := "TMP"

def parsedAnswer (p : Parsed) : Answer :=
  .list [.value (.record p.values.entries), .value (texts p.rest)]

def partWords (values : Table Value) (rest : List String) : String → Option (Command × List String)
  | "ir" => some (importCommand, importWords values rest temporaryName)
  | "code" =>
    let word (name : String) : String := (values.findD name .none).display
    let code := codePath (word "dstFramework") temporaryName (word "outputModel")
    some (codeCommand, codeWords values rest temporaryName code)
  | "model" => some (packCommand, packWords values rest temporaryName)
  | _ => none

def partAnswers (values : Table Value) : List String → List String →
    Except Fault (List (String × Answer))
  | _, [] => .ok []
  | rest, part :: parts => do
    let (command, words) ← orFault .value (partWords values rest part)
    let p ← parseKnown command words
    return (part, parsedAnswer p) :: (← partAnswers values p.rest parts)

def readCommandLine : Answer := .ofExcept do
  let command ← orFault .property (commandOf? (textOf r "script"))
  let p ← parseKnown command (wordsOf r "args")
  let parts ← partAnswers p.values p.rest (wordsOf r "extract")
  return .fields ([("args", .value (.record p.values.entries)), ("rest", .value (texts p.rest))] ++
    parts)

/-! ## Jobs -/

def jobOf? : String → Option (Arguments → Job.Task Int)
  | "convertToIR" => some importJob
  | "IRToCode" => some codeJob
  | "IRToModel" => some packJob
  | _ => none

def lineJob (script : String) (args : List String) : Job.Task Int :=
  match script, commandOf? script, jobOf? script with
  | "convert", _, _ => convertJob args temporaryName
  | _, some command, some job => do job (← parse command args)
  | _, _, _ => throw .property

def filesAnswer (opened : Bool) (f : Folder) : String × Answer :=
  let file (name : String) : String × Value :=
    (name, ((f.find? name).map (content opened)).getD .none)
  ("files", .value (.record ((wordsOf r "read").map file)))

def inFolder {α : Type} (r : Value) (job : Job.Task α) : Except Fault (Except Fault α × Desk) := do
  return job.outcome { folder := ← folderOf (r.fieldD "files") }

def statusAnswer (out : Except Fault Int) (fields : List (String × Answer)) : Answer :=
  match out with
  | .ok status => .fields (("exit", .value (.int status)) :: fields)
  | .error f => .record fields (some f)

def doCommand : Answer := .ofExcept do
  let (out, d) ← inFolder r (lineJob (textOf r "script") (wordsOf r "args"))
  return statusAnswer out [("stdout", text d.printed), filesAnswer r false d.folder]

def doJob : Answer := .ofExcept do
  let job ← orFault .property (jobOf? (textOf r "script"))
  let (out, d) ← inFolder r (job ⟨(r.fieldD "args").fields⟩)
  return statusAnswer out [("stdout", text d.printed), filesAnswer r false d.folder]

def ended : Except Fault Int → Fault
  | .ok status => { cause := .exit (some status) }
  | .error f => f

def runProgram : Answer := .ofExcept do
  let (out, d) ← inFolder r (lineJob (textOf r "script") (wordsOf r "args"))
  let quiet := ((r.fieldD "files").field? "torch").isSome
  let printed : List (String × Answer) := if quiet then [] else [("stdout", text d.printed)]
  let names : List (String × Answer) :=
    if (r.fieldD "list").isSet then [("list", .value (texts d.folder.names))] else []
  return .record (printed ++ [filesAnswer r true d.folder, ("calls", callsAnswer d.calls)] ++ names)
    (some (ended out))

/-! ## Other programs -/

def codeModules : List String := ["netmod"]

def saveModel : Answer :=
  let left (d : Desk) : List (String × Answer) := [("log", text d.printed), ("calls", callsAnswer d.calls)]
  match r.field? "argv" with
  | some _ =>
    let (out, d) := (dumpJob codeModules (wordsOf r "argv")).outcome {}
    .record (left d) (some (ended out))
  | none =>
    let network := match r.fieldD "network" with
      | .none => "netmod.py"
      | v => v.display
    let order : DumpOrder :=
      { network, weights := r.fieldD "weight", destination := (r.fieldD "dest").display }
    let (out, d) := (dump codeModules (r.fieldD "framework") order).outcome {}
    statusAnswer out (left d)

def modelFolder : Except Fault Folder := do
  let held : Content ← match r.fieldD "cntk" with
    | .none => pure (.bytes [])
    | v => do pure (.functions (← objectsOf (v.fieldD "objects"))
        ((textsOf (v.fieldD "outputs")).map .handle))
  let f := (wordsOf r "files").foldl (fun f path => f.put path held) ({} : Folder)
  return match r.fieldD "labels" with
    | .text s => f.put "labels.txt" (.text s)
    | _ => f

def predictionOf : Except Fault Value :=
  match r.fieldD "predict" with
  | .record fs => (tensorOf (.record fs)).map .array
  | v => .ok v

def fetchPretrained : Answer := .ofExcept do
  let start : Desk := { folder := ← modelFolder r }
  let prediction ← predictionOf r
  let job := match r.field? "args" with
    | some a => fetchModel ⟨a.fields⟩ prediction
    | none => fetchJob (wordsOf r "argv") prediction
  let (out, d) := job.outcome start
  let calls : List (String × Answer) :=
    if (r.fieldD "cntk").isNone then [] else [("calls", callsAnswer d.calls)]
  return .record (("log", text d.printed) :: calls) (faultOf out)

/-! ## Downloads -/

def downloadSignature : Signature :=
  { params := ["url", "directory", "local_fname", "force_write", "auto_unzip"], required := 1 }

def downloadOrder : Except Fault DownloadOrder := do
  let given ← downloadSignature.bind (r.fieldD "args").elems (r.fieldD "kw").fields
  let address ← (given.fieldD "url").toText
  let directory ← match given.field? "directory" with
    | some v => v.toText
    | none => pure "./"
  return { address, directory
           name := if (given.fieldD "local_fname").isSet then (given.fieldD "local_fname").display else ""
           overwrites := (given.fieldD "force_write").isSet, unpacks := (given.fieldD "auto_unzip").isSet }

def downloadIn (f : Folder) : Except Fault Value × Desk :=
  let job : Job.Task Value := do
    let order ← downloadOrder r
    return .text (← download order)
  job.outcome { folder := f }

def downloadExisting : Answer :=
  let f := (wordsOf r "files").foldl (fun f path => f.put path (.bytes [])) ({} : Folder)
  let (out, d) := downloadIn r f
  match out with
  | .ok v => .fields [("ok", .value v), ("log", text d.printed)]
  | .error e => .record [("log", text d.printed)] (some e)

def downloadLocal : Answer :=
  let f := (r.fieldD "files").fields.foldl
    (fun f (path, v) => f.put path (.bytes (bytesOfHex v.display.toList))) ({} : Folder)
  let (out, d) := downloadIn r f
  let bytes : Content → Value
    | .bytes bs => .text (hex bs)
    | _ => .none
  let left : List (String × Answer) := [("log", text d.printed),
    ("files", .value (.record (d.folder.files.entries.map fun (k, c) => (k, bytes c))))]
  match out with
  | .ok v => .fields (("ok", .value v) :: left)
  | .error e => .record left (some e)

end NetBridge.Service
