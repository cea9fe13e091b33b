import NetBridge.Prototxt.Plain
import NetBridge.Service.Symbol
import NetBridge.Source.Darknet

/-!
# Requests on configuration files

Reading, listing and converting configuration files and their weight files, and the plain reader of
net descriptions.
-/

namespace NetBridge.Service

open Record Source

def pairs (es : List (String × Value)) : Value := .list (es.map fun e => .list [.text e.1, e.2])

def settingValue : Config.Setting → Value
  | .given s => .text s
  | .preset n => .int n

def blockValue (b : Config.Block) : Value :=
  pairs (("type", .text b.type) :: b.settings.entries.map fun e => (e.1, settingValue e.2))

variable (r : Value)

def parseConfig : Answer := .ofExcept do
  let bs ← Config.parse (textOf r "text")
  return .fields [("blocks", .value (.list (bs.map blockValue)))]

def printConfig : Answer := .ofExcept do
  let bs ← Config.parse (textOf r "text")
  let (out, rows) := Config.listing bs
  return .record [("saved", text (Config.render bs)), ("printed", text (Config.render bs)),
    ("nice", logged rows)] (faultOf out)

def configGraph : Answer := .ofExcept do
  let p ← Config.planOf (← Config.parse (textOf r "text"))
  let g := p.graph
  let rows := g.vertices.values.map fun v => Value.list [.text v.name, .text v.item.type,
    texts v.sources, texts v.targets, pairs v.item.props.entries]
  return .fields ([
    ("nodes", .value (.list rows)),
    ("numbers", .value (.list (p.outputs.map fun e => .list [.int e.1, .text e.2]))),
    ("order", .value (texts p.nodes.keys))] ++ graphEnds g)

def wholeArray : Value → Value
  | .array t => .array (t.cast .int64)
  | v => v

def convertConfig : Answer := .ofExcept do
  let b ← Darknet.start (textOf r "text") (countingReel (tallyOf (r.fieldD "floats")))
  let b := if (r.fieldD "int_shapes").isSet then { b with graph := Darknet.wholeSizes b.graph } else b
  let (out, b) := Darknet.convert.outcome b
  let weights := b.weights.map fun _ ws => ws.map fun _ w => wholeArray w
  return .record [("graph", .value (layers b.layers.toList)), ("start", .value (.int b.own.place)),
    ("weights", .value (Record.weights weights))] (faultOf out)

/-! ## Weight files -/

def zeroGrid (name : String) : Except Fault (Grid Float) := do
  let dims ← (← orFault .property (r.field? name)).toInts
  return .filled (dims.map Int.toNat) 0.0

def gridArray (g : Grid Float) : Value := .array ⟨.float32, g.map .real⟩

def affineFields (a : Config.Affine Float) : Value :=
  .record [("weight", gridArray a.weight), ("bias", gridArray a.bias)]

def normFields (n : Config.Norm Float) : Value :=
  .record [("weight", gridArray n.weight), ("bias", gridArray n.bias), ("running_mean", gridArray n.mean),
    ("running_var", gridArray n.variance)]

def storedKind : String → Config.StoredKind
  | "fc" => .connected
  | "conv_bn" => .normed
  | "shrink" => .folded
  | _ => .convolution

def emptyLayer (kind : Config.StoredKind) : Except Fault (Config.Loading Float) := do
  let conv := r.fieldD "conv"
  let bn := r.fieldD "bn"
  let none : Grid Float := .filled [0] 0.0
  let numbers ← (r.fieldD "buf").elems.mapM fun v => do return Decimal.toSingle (← floatOf v)
  let weight ← zeroGrid conv "weight"
  let bias ← if kind.hasNorm then pure ((zeroGrid conv "bias").toOption.getD none) else zeroGrid conv "bias"
  let norm : Config.Norm Float ←
    if kind.hasNorm then
      pure ⟨← zeroGrid bn "bias", ← zeroGrid bn "weight", ← zeroGrid bn "running_mean",
        ← zeroGrid bn "running_var"⟩
    else pure ⟨none, none, none, none⟩
  return {
    reel := { numbers := numbers.toArray, place := tallyOf (r.fieldD "start") }
    main := ⟨weight, bias⟩
    norm }

def weightFile : Answer := .ofExcept do
  let kind := storedKind (textOf r "kind")
  let epsilon := (Decimal.readFloat? (textOf r "eps")).getD 1e-5
  let load : Run (Config.Loading Float) Unit := if kind.hasNorm then Config.loadNormed else Config.loadAffine
  let (out, l) := load.outcome (← emptyLayer r kind)
  let arrays := ("layer", Answer.value (affineFields l.main)) ::
    (if kind.hasNorm then [("bn", Answer.value (normFields l.norm))] else [])
  match out with
  | .error f => return .record arrays (some f)
  | .ok _ =>
    let fields := ("end", Answer.value (.int l.reel.place)) :: arrays
    match l.written kind (r.fieldD "cuda").isSet epsilon with
    | .error f => return .record fields (some f)
    | .ok xs =>
      return .fields (fields ++
        [("saved", .value (.list (xs.map fun x => .text (Decimal.floatText x))))])

/-! ## Plain net descriptions -/

mutual

def itemValue : Prototxt.Plain.Item → Value
  | .text s => .text s
  | .many items => .list (itemValues items)
  | .block es => .list (entryValues es)

def itemValues : List Prototxt.Plain.Item → List Value
  | [] => []
  | i :: is => itemValue i :: itemValues is

def entryValues : List (String × Prototxt.Plain.Item) → List Value
  | [] => []
  | (k, i) :: es => .list [.text k, itemValue i] :: entryValues es

end

def plainNet : Answer := .ofExcept do
  let info ← (Prototxt.Plain.parse (textOf r "text")).outcome
  let fields := [("info", Answer.value (itemValue info))]
  if (r.fieldD "print").isSet then
    let (out, lines) := (Prototxt.Plain.print info).outcome []
    return .record (fields ++ [("printed", logged lines)]) (faultOf out)
  return .fields fields

def savePlainNet : Answer := .ofExcept do
  let info ← (Prototxt.Plain.parse (textOf r "text")).outcome
  require ((r.fieldD "args").elems.length ≤ 1) .kind
  Prototxt.Plain.save info
  return .fields []

end NetBridge.Service
