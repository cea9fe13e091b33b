import NetBridge.Catalog.Models
import NetBridge.Job.Convert
import NetBridge.Prototxt.Plain
import NetBridge.Service.Onnx

/-!
# Single functions

Functions of the library that a request calls by name, on values.
-/

namespace NetBridge.Service

open Record Source Target

abbrev Function := List Value → Except Fault Value

def unaryFunction (f : Value → Except Fault Value) : Function := fun args => f (arg args 0)

def textFunction (f : String → String) : Function :=
  unaryFunction fun v => do return .text (f (← v.toText))

def call (f : Function) (r : Value) : Answer := .ofOutcome (f (r.fieldD "args").elems)

/-! ## Pads -/

def padsFromPairs : Function := unaryFunction Padding.fromPairs

def padsToPairs : Function := unaryFunction Padding.toPairs

def noPads : Function := unaryFunction fun v => do
  let pads ← v.flatten
  match pads.mapM int64Of with
  | .ok ns => return .bool (Padding.isNone ns)
  | .error _ => return .bool ((← pads.mapM Value.toScalar).foldl (· + ·) 0).isZero

def samePads : Function := fun args => do
  let format ← match args[3]? with
    | some v => v.toText
    | none => pure "NHWC"
  let pads ← Padding.sameOf (Text.startsWith format "NC") (← (arg args 0).elements) (arg args 1)
    (← (arg args 2).elements)
  return .ints pads

def windowPad : Function := fun args => do
  let (odd, pad) ← Padding.windowPad (← (arg args 0).toInt) (← (arg args 1).toInt) (← (arg args 2).toInt)
  return .tuple [.bool odd, .int pad]

def splitPads : Function := unaryFunction fun v => do
  match ← MxNet.Pads.ofFlat (← v.toInts) with
  | .inner pads => return .tuple [.bool false, .ints pads]
  | .outer widths => return .tuple [.bool true, .ints widths]

def unpaddedInput : Function := fun args => do
  let mode ← Code.AutoPad.ofValue? (arg args 0)
  return .bool (← Cntk.isUnpadded mode (arg args 1).toInts)

def ceilingPads : Function := unaryFunction fun v => do return .bool (Padding.isCeiling (← v.toInts))

def spatialPadsBackwards : Function := unaryFunction fun v => do
  let pads ← (← v.elements).mapM int64Of
  let l : Layer := { attrs := ⟨[("pads", .list { ints := pads })]⟩ }
  return .tuple ((← PyTorch.spatialPads (← Padding.ofValue (← l.get "pads"))).map .int)

def spatialPadPairs : Function := fun args => do
  let pairs ← (← padsToPairs args).elements
  return .tuple ((Value.inner pairs).map fun p => .tuple p.elems)

/-! ## Shapes and axes -/

def storedShape : Function := unaryFunction fun v => do
  return .ints (← (← v.elements).mapM int64Of)

/-- The sizes of a shape in words; unknown ones are left out unless asked for. -/
def shapeWords : Function := fun args => do
  let sizes ← (← (arg args 0).elements).mapM int64Of
  let kept := if (arg args 1).isSet then sizes else sizes.filter (· != -1)
  return .text (Code.joined ", " kept)

def positiveSizes : Function := unaryFunction fun v => do
  return .text (Code.joined ", " ((← v.toInts).filter (· > 0)))

def channelsLastShape : Function := unaryFunction fun v => do
  return .list (← Axes.channelsLast (← v.elements))

def channelsLastAxis : Function := unaryFunction fun v => do return .int (Axes.lastAxis (← v.toInt))

def channelsLastKernel : Function := unaryFunction fun v => do
  let t ← tensorOf v
  return .array (← t.transpose (Axes.kernelChannelsLast t.rank))

def axisOrder (order : Int → List Int) : Function := unaryFunction fun v => do
  return .text (Code.axesText order (← v.toInt))

def carryAxis : Function := fun args => do
  let rank := (← (arg args 1).elements).length
  let axis ← (arg args 2).toInt
  match arg args 0 with
  | .text "mxnet_parser" => return .int (MxNet.axisOf rank axis)
  | _ => return .int (Axes.firstAxis rank axis)

def kernelToEnd : Function := fun args => do
  return .array (← MxNet.kernelLast (← (arg args 1).toInt) (← tensorOf (arg args 0)))

def kernelToStart : Function := fun args => do
  let order ← MxNet.kernelOrder (← (arg args 1).toInt)
  return .array (← (← tensorOf (arg args 0)).transpose order)

/-- Sizes given as text or as numbers; other values than lists have none. -/
def wholeSizes : Function := unaryFunction fun v =>
  match v with
  | .list vs => do return .ints (← vs.mapM Value.readWhole)
  | _ => .ok .none

def windowSide : Function := fun args => do
  let number (i : Nat) : Except Fault Scalar := (arg args i).toScalar
  return .ofScalar (← Config.Listing.slide (← number 0) (← number 1) (← number 2) (← number 3))

/-! ## Attributes -/

def assignedAttrs : Function := fun args => do
  let values := (arg args 0).fields
  match arg args 1 with
  | .text "caffe" => return attrs (← DraftLayer.create "op" values).layer.attrs
  | _ =>
    let (out, l) := ({} : Layer).assignAll .general values
    out
    return attrs l.attrs

def readAttr : Function := fun args => do
  let l : Layer := { attrs := ← attrsOf (arg args 0) }
  l.get (← (arg args 1).toText) (arg args 2)

def storedAttr : Function := unaryFunction fun v => do
  match ← attrOf v with
  | .list l => return attr (.list l)
  | a => a.read .none

/-! ## Net descriptions -/

def layerKind : Function := unaryFunction fun v => do
  let kind? ← match v with
    | .int n => (Prototxt.LayerType.numbered n).kind?
    | v => (Prototxt.LayerType.named v.display).kind?
  return (kind?.map Value.text).getD .none

def windowSize : Function := fun args => Prototxt.sizeOf (arg args 0) (arg args 1) (arg args 2) (arg args 3)

def windowOutput : Function := fun args => do
  let n (i : Nat) : Except Fault Int := (arg args i).toInt
  let w : Prototxt.Window := {
    whole := false, kernelH := ← n 3, kernelW := ← n 4, strideH := ← n 5, strideW := ← n 6
    padH := ← n 7, padW := ← n 8 }
  let rounding := if (arg args 9).same (.text "ceil") then Prototxt.Rounding.up else .down
  let (h, v) ← w.output rounding (← n 0) (← n 1) (← n 2)
  return .tuple [.int h, .int v]

def numeric : Function := unaryFunction fun v =>
  match v with
  | .text s => .ok (.bool (Prototxt.Plain.isNumber s))
  | v => do
    let _ ← v.toScalar
    return .bool true

/-! ## Text -/

def yesWord : Function := unaryFunction fun v => do return .bool (← MxNet.flagOf v)

def wholeList : Function := unaryFunction fun v => do return .ints (← MxNet.wholesOf v)

def indented (v : Value) : Except Fault String := do
  match v.elems with
  | [indent, lines] =>
    let lines ← match lines with
      | .text s => pure [s]
      | w => do (← w.elements).mapM Value.toText
    let lead := Text.times "    " (← indent.toInt).toNat
    return String.join (lines.map fun l => lead ++ l ++ "\n")
  | _ => throw .value

def codeBody : Function := unaryFunction fun v => do
  return .text (String.join (← (← v.elements).mapM indented))

def codePathOf : Function := fun args => do
  return .text (Job.codePath (← (arg args 0).toText) (← (arg args 1).toText) (← (arg args 2).toText))

def labelPredictions : Function := fun args => do
  match arg args 1 with
  | .text labels =>
    return .list (← Catalog.labelled (Catalog.labelsOf labels) (← (arg args 2).toInt)
      (← (arg args 0).elements))
  | _ => return arg args 0

def downloadProgress : Function := fun args => do
  return .text (← Catalog.progressText (← (arg args 0).toInt) (← (arg args 1).toInt) (← (arg args 2).toInt))

end NetBridge.Service
