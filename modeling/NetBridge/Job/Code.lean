import NetBridge.Job.Basic
import NetBridge.Target.CoreMl
import NetBridge.Target.Generator

/-!
# Writing code for networks

The jobs of writing the code that builds a network in a framework, together with the weights as that
code expects them, and of building a model file from a network and its weights.
-/

namespace NetBridge.Job

def printForm (path : String) : Wire.Form → Task Unit
  | .binary => printLine ("Parse file [" ++ path ++ "] with binary format successfully.")
  | .text => do
    printLine ("Info: Trying to parse file [" ++ path ++
      "] with binary format but failed with error [Wrong wire type in tag.].")
    printLine ("Parse file [" ++ path ++ "] with text format successfully.")

def loadNetwork (path : Value) : Task Network := do
  match ← readFile path with
  | .network n =>
    printForm path.display .binary
    return n
  | .bytes bs =>
    let (form, n) ← Wire.load bs
    printForm path.display form
    return n
  | _ => throw { cause := .encoding }

def loadWeights (path : Value) : Task Weights := do
  match ← readFile path with
  | .weights w => return w
  | .bytes [] | .network { layers := [], version := 0 } => throw { cause := .truncated }
  | _ => throw { cause := .unreadable }

open Code Target

structure CodeOrder where
  target : CodeTarget
  network : Value
  weights : Option Value := none
  written : Value := .none

def CodeOrder.load (o : CodeOrder) : Task (Network × Option Weights) := do
  let weights : Task (Option Weights) := match o.weights with
    | some path => do return some (← loadWeights path)
    | none => pure none
  if o.target = .pytorch then
    let n ← loadNetwork o.network
    return (n, ← weights)
  else
    let w ← weights
    return (← loadNetwork o.network, w)

def savesEarly (t : CodeTarget) : Bool := t = .mxnet

def savesLate (t : CodeTarget) : Bool := t = .caffe || t = .pytorch

def saveTargetArrays (path : String) (t : Table Value) : Task Unit := do
  modifyFolder fun f => f.makeDirectories (Text.directory path)
  writeFile path (.arrays t)

def writeCode (o : CodeOrder) (network : Network) (weights : Option Weights) (destination phase : Value) :
    Task Unit := do
  let file := o.written.display
  let (out, s) := (o.target.code file).outcome (startScope network weights phase.display)
  printLines s.log
  let code ← out
  if savesEarly o.target && weights.isSome then saveTargetArrays file s.arrays
  let path ← pathOf destination
  writeFile path (.text code)
  printLine ("Target network code snippet is saved as [" ++ path ++ "].")
  if savesLate o.target && weights.isSome then
    let path ← pathOf o.written
    writeFile path (.weights s.weights)
    printLine ("Target weights are saved as [" ++ path ++ "].")

def orderWith (target : CodeTarget) (a : Arguments) : Except Fault CodeOrder := do
  let weights ← argument a "IRWeightPath"
  return { target, network := ← argument a "IRModelPath"
           weights := if weights.isNone then none else some weights
           written := a.findD "dstWeightPath" .none }

def noWeightFile : Fault := .report .value "Need to set a target weight filename."

variable (a : Arguments)

def codeOrder : Except Fault CodeOrder := do
  match (← argument a "dstFramework").display with
  | "caffe" =>
    let o ← orderWith .caffe a
    require (o.weights.isNone || (← argument a "dstWeightPath").isSet)
    return o
  | "keras" => return { target := .keras, network := ← argument a "IRModelPath" }
  | "tensorflow" => orderWith .tensorflow a
  | "cntk" => orderWith .cntk a
  | "coreml" => throw (.report .unsupported "CoreML emitter is not finished yet.")
  | "pytorch" =>
    require (← argument a "dstWeightPath").isSet noWeightFile
    require (← argument a "IRWeightPath").isSet noWeightFile
    orderWith .pytorch a
  | "mxnet" =>
    let o ← orderWith .mxnet a
    if o.weights.isSome && (← argument a "dstWeightPath").isNone then
      throw (.report .value
        "MXNet emitter needs argument [dstWeightPath(dw)], like -dw mxnet_converted-0000.param")
    return o
  | _ => throw .condition

def codeJob : Task Int := do
  let o ← codeOrder a
  let (network, weights) ← o.load
  let destination ← argument a "dstModelPath"
  let written ← argument a "dstWeightPath"
  writeCode { o with written } network weights destination (← argument a "phase")
  return 0

/-! ## Model files -/

open Code Target

def packedText : String := "spec"

def textFile (f : Folder) (path : String) : List (String × String) :=
  match f.find? path with
  | some (.bytes bs) => ((Text.decodeUtf8 bs).map fun s => (path, s)).toList
  | _ => []

def packOptions (f : Folder) : Except Fault CoreMl.Options := do
  let names := ["inputNames", "outputNames", "imageInputNames"]
  let _ ← names.mapM (argument a)
  let preparation ← [("is_bgr", "isBGR"), ("red_bias", "redBias"), ("blue_bias", "blueBias"),
    ("green_bias", "greenBias"), ("gray_bias", "grayBias"), ("image_scale", "scale")].mapM
      fun (k, name) => do return (k, ← argument a name)
  let labels ← argument a "classInputPath"
  return { preparation
           labels := if labels.isSet then labels else .none
           feature := ← argument a "predictedFeatureName"
           files := textFile f labels.display }

def notFound (what : String) (path : Value) : Fault :=
  .report .value ("IR " ++ what ++ " file [" ++ path.display ++ "] is not found.")

def packModel : Task Unit := do
  let network ← argument a "inputNetwork"
  Run.require !network.isNone
  let weights ← argument a "inputWeight"
  Run.require !weights.isNone
  if !(← hasPath network) then throw (notFound "architecture" network)
  let n ← loadNetwork network
  let built := startScope n none "test"
  printLines built.log
  if !(← hasPath weights) then throw (notFound "weight" weights)
  let w ← loadWeights weights
  let options ← packOptions a (← folder)
  let (out, s) := (CoreMl.convert options).outcome
    { scope := { built with weights := w, loaded := true, log := [] } }
  call s.calls
  printLines s.scope.log
  discard (out : Except Fault _)
  writeFile (← pathOf (← argument a "output")) (.text packedText)

def packCode (o : CodeOrder) (a : Arguments) : Task Unit := do
  let (network, weights) ← o.load
  writeCode o network weights (← argument a "output") (.text "test")

def packJob : Task Int := do
  let missing (name : String) : Fault :=
    .report .unsupported ("Destination [" ++ name ++ "] is not implemented yet.")
  match (← argument a "framework").display with
  | "caffe" => throw (missing "Caffe")
  | "keras" => throw (missing "Keras")
  | "tensorflow" | "cntk" => throw (missing "Tensorflow")
  | "coreml" => packModel a
  | "pytorch" =>
    Run.require (← argument a "dstWeightPath").isSet noWeightFile
    let weights ← argument a "IRWeightPath"
    Run.require weights.isSet noWeightFile
    packCode { target := .pytorch, network := ← argument a "IRModelPath", weights := some weights } a
  | "mxnet" =>
    let weights ← argument a "IRWeightPath"
    let network ← argument a "IRModelPath"
    if !weights.isNone then
      discard (argument a "inputShape" : Except Fault _)
      discard (argument a "dstWeightPath" : Except Fault _)
      throw .kind
    packCode { target := .mxnet, network } a
  | _ => throw .condition
  return 0

end NetBridge.Job
