import NetBridge.Prototxt.Plain
import NetBridge.Config.Basic
import NetBridge.Service.Answer
import NetBridge.Source.Onnx

/-!
# Requests for small tools

Programs that show one file: a tour of the shape rules, the listing of a configuration, and the printed
form of a plain net description.
-/

namespace NetBridge.Service

open Source

def toolFile (usage : String) (r : Value) : Run (List String) String := do
  match (r.fieldD "argv").elems with
  | [name] =>
    match (r.fieldD "files").field? name.display with
    | some (.text s) => return s
    | _ => throw { cause := .missingFile }
  | _ =>
    modify fun ls => ls ++ [usage]
    throw { cause := .exit none }

def listConfig (r : Value) : Run (List String) Unit := do
  let source ← toolFile "Usage: python cfg.py model.cfg" r
  let (out, rows) := Config.listing (← Config.parse source)
  modify fun ls => ls ++ rows
  (out : Except Fault Unit)

def printPlainNet (r : Value) : Run (List String) Unit := do
  let source ← toolFile "Usage: python prototxt.py model.prototxt" r
  let info ← (Prototxt.Plain.parseBare source).outcome
  Prototxt.Plain.print info
  (Prototxt.Plain.save info : Except Fault Unit)

def tool? (r : Value) : String → Option (Run (List String) Unit)
  | "onnx.shape_inference" => some Onnx.tour
  | "darknet.cfg" => some (listConfig r)
  | "darknet.prototxt" => some (printPlainNet r)
  | _ => none

def runTool (r : Value) : Answer := .ofExcept do
  let tool ← orFault .property (tool? r (Record.textOf r "module"))
  let (out, lines) := tool.outcome []
  return .record [("log", logged lines)] (faultOf out)

end NetBridge.Service
