import NetBridge.Record.Network
import NetBridge.Source.CoreMl

/-!
# Core ML models as records

Fields that are not given have their default: zero, false, empty. Fractions have single precision.
-/

namespace NetBridge.Record

open Source

variable (v : Value)

def countOf (name : String) : Except Fault Int :=
  match v.fieldD name with
  | .none => .ok 0
  | x => x.toInt

def countsOf (name : String) : Except Fault (List Int) :=
  (v.fieldD name).elems.mapM Value.toInt

def flagOf (name : String) : Bool := (v.fieldD name).isSet

def singleOf : Except Fault Float := do return Decimal.toSingle (← floatOf v)

def weightFloats : Except Fault (List Float) :=
  (v.fieldD "floatValue").elems.mapM singleOf

def weightFloats? (name : String) : Except Fault (Option (List Float)) :=
  match v.field? name with
  | some w => (weightFloats w).map some
  | none => .ok none

def bordersOf : Except Fault (List (Int × Int)) :=
  ((v.fieldD "paddingAmounts").fieldD "borderAmounts").elems.mapM fun b => do
    return (← countOf b "startEdgeSize", ← countOf b "endEdgeSize")

def windowPadsOf : Except Fault CoreMl.WindowPads :=
  match v.field? "valid", v.field? "same", v.field? "includeLastPixel" with
  | some b, _, _ => (bordersOf b).map .valid
  | none, some _, _ => .ok .same
  | none, none, some p => (countsOf p "paddingAmounts").map .lastPixel
  | none, none, none => .ok .unknown

def parameterOf (isMessage : Bool) (v : Value) : Except Fault Value := do
  if isMessage then
    let xs ← weightFloats v
    return .message (if xs.isEmpty then [] else [("floatValue", .list (xs.map .float))])
  else
    match v with
    | .none => return .float 0.0
    | x => return .float (← singleOf x)

def activationOf : Except Fault CoreMl.Activation :=
  match v.fields with
  | [] => .ok {}
  | (kind, p) :: _ => do
    let isMessage := kind = "PReLU" || kind = "parametricSoftplus"
    return { kind := some kind, alpha := ← parameterOf isMessage (p.fieldD "alpha")
             beta := ← parameterOf isMessage (p.fieldD "beta") }

def convolutionOf : Except Fault CoreMl.Convolution := do
  return {
    kernelSize := ← countsOf v "kernelSize", kernelChannels := ← countOf v "kernelChannels"
    outputChannels := ← countOf v "outputChannels", groups := ← countOf v "nGroups"
    stride := ← countsOf v "stride", dilation := ← countsOf v "dilationFactor"
    weights := ← weightFloats? v "weights", bias := ← weightFloats? v "bias"
    hasBias := flagOf v "hasBias", isTransposed := flagOf v "isDeconvolution"
    pads := ← windowPadsOf v }

def poolingOf : Except Fault CoreMl.Pooling := do
  return {
    type := ← countOf v "type", isGlobal := flagOf v "globalPooling"
    kernelSize := ← countsOf v "kernelSize", stride := ← countsOf v "stride"
    pads := ← windowPadsOf v }

def batchNormOf : Except Fault CoreMl.BatchNorm := do
  return {
    gamma := ← weightFloats? v "gamma", beta := ← weightFloats? v "beta"
    mean := ← weightFloats (v.fieldD "mean"), variance := ← weightFloats (v.fieldD "variance")
    epsilon := ← match v.fieldD "epsilon" with
      | .none => .ok 0.0
      | x => singleOf x }

def scaleOf : Except Fault CoreMl.Scale := do
  return {
    factors := ← weightFloats (v.fieldD "scale"), shape := ← countsOf v "shapeScale"
    hasBias := flagOf v "hasBias", bias := ← weightFloats (v.fieldD "bias")
    biasShape := ← countsOf v "shapeBias" }

def denseOf : Except Fault CoreMl.Dense := do
  return {
    inputChannels := ← countOf v "inputChannels", outputChannels := ← countOf v "outputChannels"
    weights := ← weightFloats (v.fieldD "weights"), hasBias := flagOf v "hasBias"
    bias := ← weightFloats (v.fieldD "bias") }

def borderOf : Except Fault CoreMl.Border := do
  let has (name : String) : Bool := (v.field? name).isSome
  let mode := if has "constant" then some "CONSTANT" else if has "reflection" then some "REFLECT"
    else if has "replication" then some "SYMMETRIC" else none
  return { mode := mode, amounts := ← bordersOf v }

def mlKindOf : Except Fault CoreMl.Kind :=
  let readers : List (String × (Value → Except Fault CoreMl.Kind)) := [
    ("convolution", fun x => (convolutionOf x).map .convolution),
    ("batchnorm", fun x => (batchNormOf x).map .batchNorm),
    ("scale", fun x => (scaleOf x).map .scale),
    ("pooling", fun x => (poolingOf x).map .pooling),
    ("activation", fun x => (activationOf x).map .activation),
    ("softmax", fun _ => .ok .softmax),
    ("padding", fun x => (borderOf x).map .padding),
    ("add", fun _ => .ok .add),
    ("flatten", fun _ => .ok .flatten),
    ("innerProduct", fun x => (denseOf x).map .dense),
    ("concat", fun _ => .ok .concat)]
  match readers.findSome? fun (name, read) => (v.field? name).map read with
  | some k => k
  | none => .ok .unsupported

def mlLayerOf : Except Fault (String × CoreMl.Node) := do
  return (textOf v "name", { inputs := textsOf (v.fieldD "input"), outputs := textsOf (v.fieldD "output")
                             kind := ← mlKindOf v })

def imageOf : Except Fault (String × CoreMl.Image) := do
  let image := (v.fieldD "type").fieldD "imageType"
  return (textOf v "name", { width := ← countOf image "width", height := ← countOf image "height"
                             colorSpace := ← countOf image "colorSpace" })

/-- A model; nothing if it is no network. -/
def mlModelOf : Except Fault (Option CoreMl.Model) := do
  let network := ["neuralNetwork", "neuralNetworkClassifier", "neuralNetworkRegressor"].findSome?
    fun n => v.field? n
  match network with
  | none => return none
  | some n => return some {
      inputs := ← ((v.fieldD "description").fieldD "input").elems.mapM imageOf
      layers := ← (n.fieldD "layers").elems.mapM mlLayerOf }

end NetBridge.Record
