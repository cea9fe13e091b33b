import NetBridge.Job.Basic
import NetBridge.Network.Document
import NetBridge.Prototxt.Convert
import NetBridge.Source.Checkpoint
import NetBridge.Source.Darknet
import NetBridge.Source.MxNet

/-!
# Reading models into networks

The job of reading a model of a framework and writing the network it describes: as a document, in
binary form, and with its weights if they are loaded.
-/

namespace NetBridge.Job

open Source

def savedLine (what path : String) : String := what ++ " saved as [" ++ path ++ "]."

def saveNetwork (destination : String) (style : Json.Style) (n : Network) : Task Unit := do
  writeFile (destination ++ ".json") (.document style (Document.network n))
  printLine (savedLine "IR network structure is" (destination ++ ".json"))
  writeFile (destination ++ ".pb") (.network n)
  printLine (savedLine "IR network structure is" (destination ++ ".pb"))

def saveArrays (destination : String) (c : Content) : Task Unit := do
  writeFile (destination ++ ".npy") c
  printLine (savedLine "IR weights are" (destination ++ ".npy"))

def convertTo {α σ : Type} (destination : Value) (b : Builder α σ) (conversion : Build α σ Unit)
    (after : Builder α σ → Task Unit := fun _ => pure ()) : Task Unit := do
  let (out, b) := conversion.outcome b
  printLines b.log
  out
  after b
  let path ← pathOf destination
  saveNetwork path Json.inOrder { layers := b.layers.toList }
  if b.loaded then saveArrays path (.weights b.weights)
  else printLine "Warning: weights are not loaded."

/-! ## The frameworks -/

def sizesOption : Value → Option (List Value)
  | .none => none
  | v => some v.elems

def netOf : Content → Except Fault Prototxt.NetSpec
  | .net n => .ok n
  | .bytes [] => .ok {}
  | _ => .error .value

def arraysContent (t : Table Prototxt.Arrays) : Content :=
  match t.entries.mapM fun e => e.2.byName?.map fun named => (e.1, named) with
  | some es => .weights ⟨es⟩
  | none => .arrays (t.map fun _ a => a.value)

variable (a : Arguments)

def importNet : Task Unit := do
  let network ← argument a "network"
  let weights ← argument a "weights"
  let shape ← argument a "inputShape"
  let phase ← argument a "caffePhase"
  let spec ← if network.isNone then pure none else do pure (some (← netOf (← readFile network)))
  let conversion : Prototxt.Conversion :=
    { spec := spec, inputShape := sizesOption shape, phase := phase.display }
  if spec.isNone && shape.isNone then
    discard (conversion.plan : Except Fault _)
  if !weights.isNone && spec.isSome then
    discard (conversion.run : Except Fault _)
  let model ← if weights.isNone then pure none else do pure (some (← netOf (← readFile weights)))
  let s ← ({ conversion with model := model }.run)
  if spec.isNone then
    model.forM fun m => writeFile "deploy.prototxt" (.net m.withoutBlobs)
  let (d, names) ← Prototxt.toDraft s.net
  let arrays ← Prototxt.layerArrays s.net names
  let destination ← pathOf (← argument a "dstPath")
  saveNetwork destination Json.sorted d.network
  saveArrays destination (arraysContent arrays)

def loadedModel : Task Keras.Model := do
  let models := (← folder).files.values.filterMap fun
    | .model m => some m
    | _ => none
  orFault .property models.head?

def loadDescription (network weights : Value) : Task (Keras.Model × Bool) := do
  let _ ← readFile network
  let m ← loadedModel
  if !weights.isSet then return (m, false)
  let path ← pathOf weights
  if (← folder).hasFile path then
    call [{ name := "load_weights", args := [weights] }]
    printLine ("Network file [" ++ network.display ++ "] and [" ++ path ++ "] is loaded successfully.")
    return (m, true)
  else
    printLine ("Warning: Weights File [" ++ path ++ "] is not found.")
    return (m, false)

def importModel : Task Unit := do
  let network ← argument a "network"
  let weights ← argument a "weights"
  let (m, loaded) ←
    if !network.isNone then loadDescription network weights
    else do
      Run.require !weights.isNone
      pure (← loadedModel, true)
  let b ← Keras.start loaded m
  convertTo (← argument a "dstPath") b Keras.convert fun _ => call [{ name := "clear_session" }]

def graphContent : Content → Except Fault (List Layer × Frozen.Told)
  | .graph nodes told => .ok (nodes, told)
  | .network n => .ok (n.layers, { inputs := [] })
  | _ => .error .value

def importFrozen (file : Value) : Task Unit := do
  let sizes ← argument a "inputShape"
  let inputs ← argument a "inNodeName"
  let content ← readFile file
  let (nodes, told) ← graphContent content
  let told := { told with inputs := Text.split ',' (← pathOf inputs) }
  writeFile "frozen.pb" content
  let b ← Frozen.start told nodes (← sizes.elements)
  convertTo (← argument a "dstPath") b Frozen.convert

def importGraph : Task Unit := do
  let network ← argument a "network"
  let weights ← argument a "weights"
  let nodes ← if network.isSet then do
      let (nodes, _) ← graphContent (← readFile network)
      printLine ("Parse file [" ++ network.display ++ "] with binary format successfully.")
      printLine ("Tensorflow model file [" ++ network.display ++ "] loaded successfully.")
      pure (some nodes)
    else pure none
  let checkpoint ← if weights.isSet then do
      let arrays := (← folder).checkpoint.getD ∅
      printLine ("Tensorflow checkpoint file [" ++ weights.display ++ "] loaded successfully. [" ++
        toString arrays.size ++ "] variables loaded.")
      pure (some arrays)
    else pure none
  let nodes ← orFault { cause := .unassigned } nodes
  convertTo (← argument a "dstPath") (Checkpoint.start nodes checkpoint) Checkpoint.convert

def importTensorFlow : Task Unit := do
  let output ← argument a "dstNodeName"
  Run.require (!output.isNone)
    (.report .value "Need to provide the output node of Tensorflow model.")
  let frozen ← argument a "frozen_pb"
  if frozen.isSet then importFrozen a frozen else importGraph a

def epochOf (path : String) : Except Fault Int := do
  let stem := if path.isEmpty then path else Text.dropEnd 7 path
  require (stem.toList.contains '-') .value
  (Value.text (Text.afterLast '-' stem)).readWhole

def importSymbol : Task Unit := do
  let sizes ← argument a "inputShape"
  Run.require !sizes.isNone
  let weights ← argument a "weights"
  let network ← argument a "network"
  let arrays ← if weights.isNone then pure none else do
    let _ ← epochOf (← pathOf weights)
    pure (some ((← folder).checkpoint.getD ∅))
  let (nodes, shapes) ← match ← readFile network with
    | .symbol nodes shapes => pure (nodes, shapes)
    | _ => throw .value
  let ns ← (← sizes.elements).mapM fun v => (v.readWhole : Except Fault Int)
  let b ← MxNet.start nodes ns arrays shapes
  convertTo (← argument a "dstPath") b MxNet.convert

def importFunctions : Task Unit := do
  let network ← argument a "network"
  let path ← if network.isSet then pure network else argument a "weights"
  if !(← hasPath path) then
    throw (.report .value ("Cntk model [" ++ path.display ++ "] can not be found!"))
  match ← readFile path with
  | .functions objects outputs =>
    let b ← Cntk.start objects outputs
    convertTo (← argument a "dstPath") b Cntk.convert
  | _ => throw .property

/-- Reads a model that can only be run: there is no way on from there. -/
def importRunnable : Task Unit := do
  let network ← argument a "network"
  let path ← if network.isSet then pure network else argument a "weights"
  Run.require !path.isNone
  let sizes ← argument a "inputShape"
  if !(← hasPath path) then
    throw (.report .value ("Torch7 model file [" ++ path.display ++ "] is not found."))
  match ← readFile path with
  | .runnable m =>
    let (calls, out) := m.load sizes
    call calls
    discard (out : Except Fault _)
    discard (argument a "dstPath" : Except Fault _)
    throw .condition
  | _ => throw .property

def numbersOf : Content → Except Fault (Config.Reel Float)
  | .numbers r => .ok r
  | .bytes bs => .ok { numbers := (Config.singles (bs.drop 16)).toArray, place := 1 }
  | _ => .error .value

def importConfig : Task Unit := do
  let network ← argument a "network"
  let weights ← argument a "weights"
  if !(← hasPath network) then
    throw (.report .value ("Darknet model config [" ++ network.display ++ "] can not be found!"))
  let reel ← numbersOf (← readFile weights)
  printLine ("weights buf size: " ++ toString reel.numbers.size)
  let text ← match ← readFile network with
    | .bytes bs => orFault { cause := .encoding } (Text.decodeUtf8 bs)
    | _ => throw .value
  let b ← Darknet.start text reel
  convertTo (← argument a "dstPath") b Darknet.convert fun b =>
    printLine ("loaded weights buf size: " ++ toString b.own.place)

def importJob : Task Int := do
  let framework ← argument a "srcFramework"
  match framework.display with
  | "caffe" => importNet a
  | "caffe2" => throw (.report .unsupported "Caffe2 is not supported yet.")
  | "keras" => importModel a
  | "tensorflow" | "tf" => importTensorFlow a
  | "mxnet" => importSymbol a
  | "cntk" => importFunctions a
  | "pytorch" =>
    let sizes ← argument a "inputShape"
    Run.require !sizes.isNone
    throw { cause := .missingModule }
  | "torch" | "torch7" => importRunnable a
  | "onnx" => throw { cause := .malformedModule }
  | "darknet" => importConfig a
  | name => throw (.report .value ("Unknown framework [" ++ name ++ "]."))
  return 0

end NetBridge.Job
