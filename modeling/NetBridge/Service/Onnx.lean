import NetBridge.Service.Symbol
import NetBridge.Source.Onnx

/-!
# Requests on ONNX models

The graph of a model, and the shapes that its operations give.
-/

namespace NetBridge.Service

open Record Source

def operationOf (v : Value) : Onnx.Operation where
  name := textOf v "name"
  type := textOf v "op_type"
  inputs := textsOf (v.fieldD "input")
  outputs := textsOf (v.fieldD "output")

def modelGraph (r : Value) : Answer :=
  let names (key : String) : List String := textsOf (r.fieldD key)
  let (g, log) := Onnx.graphOf {
    operations := (r.fieldD "nodes").elems.map operationOf
    stored := names "initializer", inputs := names "input", outputs := names "output" }
  let rows := g.vertices.values.map fun v => Value.list [.text v.name, .text v.item.type,
    texts v.item.weights, texts v.item.inputs, texts v.item.outputs,
    texts v.sources, texts v.targets]
  .fields ([("nodes", .value (.list rows)), ("log", logged log)] ++ graphEnds g)

def shapeSignature? : String → Option Signature
  | "Add" => some ⟨["shapeA", "shapeB", "axis", "broadcast"], 2⟩
  | "AveragePool" | "MaxPool" => some ⟨["shape", "auto_pad", "kernelShape", "pads", "strides"], 1⟩
  | "BatchNormalization" => some ⟨["shape", "scale", "B", "mean", "var"], 1⟩
  | "Concat" => some ⟨["shapeList", "axis"], 2⟩
  | "Conv" => some ⟨["shapeX", "shapeW", "auto_pad", "dilations", "group", "kernel_shape", "pads",
      "strides"], 2⟩
  | "GlobalAveragePool" => some ⟨["shapeX"], 1⟩
  | "Mul" => some ⟨["shapeX", "shapeW", "axis", "broadcast"], 2⟩
  | "Relu" => some ⟨["shape"], 1⟩
  | "FC" => some ⟨["shapeX", "shapeW", "shapeB", "axis", "axis_w"], 2⟩
  | "Flatten" => some ⟨["shapeT", "axis"], 1⟩
  | _ => none

def sizesOf? (v : Value) : Except Fault (Option (List Int)) :=
  match v with
  | .none => .ok none
  | v => v.toInts.map some

def inferShape (name : String) (given : Value) : Except Fault Value := do
  let sizes (key : String) : Except Fault (List Int) := (given.fieldD key).toInts
  let sizes? (key : String) : Except Fault (Option (List Int)) := sizesOf? (given.fieldD key)
  match name with
  | "Add" => return given.fieldD "shapeA"
  | "Mul" => return given.fieldD "shapeX"
  | "AveragePool" | "MaxPool" =>
    return .ints (← Onnx.pool (← sizes "shape") (← sizes? "kernelShape") (← sizes? "pads") (← sizes? "strides"))
  | "Concat" =>
    let shapes ← (← (given.fieldD "shapeList").elements).mapM Value.toInts
    return .ints (← Onnx.concat shapes (← (given.fieldD "axis").toInt))
  | "Conv" =>
    return .ints (← Onnx.conv (← sizes "shapeX") (← sizes "shapeW") (← sizes? "kernel_shape")
      (← sizes? "pads") (← sizes? "strides") (← sizes? "dilations"))
  | "GlobalAveragePool" => return .ints (Onnx.globalPool (← sizes "shapeX"))
  | "FC" => return .ints (← Onnx.dense (← sizes "shapeX") (← sizes "shapeW"))
  | "Flatten" =>
    let axis ← match given.fieldD "axis" with
      | .none => pure 1
      | v => v.toInt
    return .ints (Onnx.flatten (← sizes "shapeT") axis)
  | _ => return given.fieldD "shape"

def afterCall (name : String) (args : List Value) (out : Except Fault Value) : List Value :=
  match name, args, out with
  | "Concat", .list (_ :: shapes) :: rest, .ok shape => .list (shape :: shapes) :: rest
  | _, args, _ => args

def shapeCall (call : Value) : Answer :=
  match call.elems with
  | [.text name, args, named] =>
    let out : Except Fault Value := do
      let s ← orFault .key (shapeSignature? name)
      inferShape name (← s.bind args.elems named.fields)
    let after := [("args", Answer.value (.list (afterCall name args.elems out)))]
    match out with
    | .ok shape => .fields (("ok", .value shape) :: after)
    | .error f => .record after (some f)
  | _ => .failed .kind

def shapeCalls (r : Value) : Answer := .list ((r.fieldD "calls").elems.map shapeCall)

def sampleShapes (image : Value) : Except Fault Value := do
  let (out, log) := (Onnx.sampleNetwork (← image.toInts)).outcome []
  return .record [("result", .ints (← out)), ("log", .text (logText log))]

end NetBridge.Service
