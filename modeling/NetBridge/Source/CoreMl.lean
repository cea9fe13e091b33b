import NetBridge.Source.Builder

/-!
# Core ML models

A model has image inputs and a list of layers. A layer names the blobs that it reads and writes; it is
connected with every layer that reads a blob of its. Channels come before height and width.
-/

namespace NetBridge.Source.CoreMl

inductive WindowPads where
  | valid (borders : List (Int × Int))
  | same
  | lastPixel (amounts : List Int)
  | unknown
  deriving Inhabited

structure Convolution where
  kernelSize : List Int := []
  kernelChannels : Int := 0
  outputChannels : Int := 0
  groups : Int := 0
  stride : List Int := []
  dilation : List Int := []
  weights : Option (List Float) := none
  bias : Option (List Float) := none
  hasBias : Bool := false
  isTransposed : Bool := false
  pads : WindowPads := .unknown

structure Pooling where
  type : Int := 0
  isGlobal : Bool := false
  kernelSize : List Int := []
  stride : List Int := []
  pads : WindowPads := .unknown

structure BatchNorm where
  gamma : Option (List Float) := none
  beta : Option (List Float) := none
  mean : List Float := []
  variance : List Float := []
  epsilon : Float := 0.0

structure Scale where
  factors : List Float := []
  shape : List Int := []
  hasBias : Bool := false
  bias : List Float := []
  biasShape : List Int := []

structure Dense where
  inputChannels : Int := 0
  outputChannels : Int := 0
  weights : List Float := []
  hasBias : Bool := false
  bias : List Float := []

structure Border where
  mode : Option String := none
  amounts : List (Int × Int) := []

structure Activation where
  kind : Option String := none
  alpha : Value := .none
  beta : Value := .none

inductive Kind where
  | convolution (c : Convolution)
  | batchNorm (n : BatchNorm)
  | scale (s : Scale)
  | pooling (p : Pooling)
  | activation (a : Activation)
  | softmax
  | padding (b : Border)
  | add
  | flatten
  | dense (d : Dense)
  | concat
  | unsupported
  deriving Inhabited

structure Image where
  width : Int := 0
  height : Int := 0
  colorSpace : Int := 0
  deriving Inhabited

structure Node where
  inputs : List String := []
  outputs : List String := []
  kind : Kind := .unsupported
  deriving Inhabited

inductive Item where
  | image (i : Image)
  | layer (n : Node)
  deriving Inhabited

structure Model where
  inputs : List (String × Image) := []
  layers : List (String × Node) := []

def edges (m : Model) : List (String × String) :=
  let inner := m.layers.flatMap fun (a, na) => m.layers.flatMap fun (b, nb) =>
    na.outputs.flatMap fun o => (nb.inputs.filter (· == o)).map fun _ => (a, b)
  let outer := m.inputs.flatMap fun (a, _) => m.layers.flatMap fun (b, nb) =>
    (nb.inputs.filter (· == a)).map fun _ => (a, b)
  inner ++ outer

def graphOf (m : Model) : Graph Item × List String :=
  let g := m.inputs.foldl (fun g (n, i) => g.add n (.image i)) ({} : Graph Item)
  let g := m.layers.foldl (fun g (n, l) => g.add n (.layer l)) g
  let (g, log) := g.connectAll (edges m)
  (g.finish, log)

abbrev State := Table (List Value)

abbrev Convert (β : Type) := Build Item State β

/-! ## Parts of layers -/

def outputSizes (n : Node) : Convert (List Int) := do
  let blob ← orFault .position n.outputs.head?
  let dims ← (← own).get blob Fault.key
  let size (i : Int) : Except Fault Int := do
    let d ← Value.nth dims i
    int64Of (if d.isSet then d else .int (-1))
  let batch ← Value.nth dims 1
  let batch ← (int64Of (if batch.same (.int 1) then .int (-1) else batch) : Except Fault Int)
  return [batch, ← size 3, ← size 4, ← size 2]

variable (v : Vertex Item)

def identify (n : Node) (k : Nat) (op : String) : Convert Unit := do
  setName k v.name
  setOp k op
  addShape k "_output_shapes" (← outputSizes n)

def carry (n : Node) (op : String) : Convert Nat := do
  let k ← newLayer
  identify v n k op
  readSources v k
  return k

def floats (xs : List Float) : Value := .array (.ofFloats xs)

/-- The flat list of border amounts; without any, those of two axes without pads. -/
def flatBorders (bs : List (Int × Int)) : List Int :=
  if bs.isEmpty then [0, 0, 0, 0] else Padding.flat bs

def setPads (k : Nat) (p : WindowPads) (isPool : Bool) : Convert Unit :=
  match p with
  | .valid bs => assign k [("auto_pads", .text "VALID"), ("pads", .ints (flatBorders bs))]
  | .same => assign k [("auto_pads", .text "SAME")]
  | .lastPixel as =>
    if isPool then
      match as with
      | [h, w] => assign k [("pads", .ints [h, h, w, w])]
      | _ => throw .value
    else throw .condition
  | .unknown => throw .condition

def kernelOf (c : Convolution) (ws : List Float) : Except Fault Tensor :=
  match c.kernelSize with
  | [h, w] => do
    let t ← (Tensor.ofFloats ws).reshape [c.outputChannels, c.kernelChannels, h, w]
    t.transpose [2, 3, 1, 0]
  | _ => .error .value

/-! ## Layers -/

def storeKernel (c : Convolution) : Convert Unit := do
  match c.weights with
  | none => pure ()
  | some ws =>
    setWeight v.name "weights" (.array (← kernelOf c ws))
    match c.bias with
    | none => pure ()
    | some b => setWeight v.name "bias" (floats b)

def convolution (n : Node) (c : Convolution) : Convert Unit := do
  let k ← newLayer
  readSources v k
  storeKernel v c
  setPads k c.pads false
  let op := match Text.afterLast '/' v.name with
    | "sep" => "Conv"
    | "dw" => "DepthwiseConv"
    | _ => if c.isTransposed then "ConvTranspose" else "Conv"
  identify v n k op
  assign k [("use_bias", .bool c.hasBias), ("isDeconvolution", .bool c.isTransposed),
    ("kernel_shape", .ints ([1] ++ c.kernelSize ++ [c.kernelChannels, c.outputChannels])),
    ("groups", .int c.groups), ("strides", .ints ([1] ++ c.stride ++ [1])),
    ("dilations", .ints c.dilation)]

def pooling (n : Node) (p : Pooling) : Convert Unit := do
  let k ← carry v n "Pool"
  let type : List (String × Value) := match p.type with
    | 0 => [("pooling_type", .text "MAX")]
    | 1 => [("pooling_type", .text "AVG")]
    | 2 => [("pooling_type", .text "L2")]
    | _ => []
  setPads k p.pads true
  let isGlobal : List (String × Value) := if p.isGlobal then [("global_pooling", .bool true)] else []
  assign k (type ++ isGlobal ++ [("strides", .ints ([1] ++ p.stride ++ [1])),
    ("kernel_shape", .ints ([1] ++ p.kernelSize ++ [1]))])

def activationOp? : String → Option String
  | "ReLU" => some "Relu"
  | "leakyReLU" => some "LeakyRelu"
  | "linear" => some "linear"
  | "thresholdedReLU" => some "ThresholdedRelu"
  | "PReLU" => some "PRelu"
  | "tanh" => some "Tanh"
  | "scaledTanh" => some "ScaledTanh"
  | "sigmoid" => some "Sigmoid"
  | "sigmoidHard" => some "SigmoidHard"
  | "ELU" => some "Elu"
  | "softplus" => some "Softplus"
  | "softsign" => some "Softsign"
  | "parametricSoftplus" => some "ParametricSoftplus"
  | _ => none

def activationWeights (a : Activation) : List (String × Value) :=
  match a.kind with
  | some "leakyReLU" | some "ELU" => [("alpha", a.alpha)]
  | some "PReLU" => [("gamma", a.alpha)]
  | some "scaledTanh" | some "linear" | some "sigmoidHard" | some "parametricSoftplus" =>
    [("alpha", a.alpha), ("beta", a.beta)]
  | _ => []

def activation (n : Node) (a : Activation) : Convert Unit := do
  let k ← newLayer
  match a.kind.bind activationOp? with
  | some op => identify v n k op
  | none => pure ()
  (activationWeights a).forM fun (name, x) => setWeight v.name name x
  readSources v k

def channelsOf : Int → Except Fault Int
  | 10 => .ok 2
  | 20 | 30 => .ok 3
  | _ => .error .condition

def dataInput (i : Image) : Convert Unit := do
  let k ← newLayer
  setName k v.name
  setOp k "DataInput"
  let dims := [-1, i.width, i.height, ← channelsOf i.colorSpace]
  addShape k "_output_shapes" dims
  readSources v k
  mergeShape k "shape" dims

def batchNorm (n : Node) (b : BatchNorm) : Convert Unit := do
  let k ← carry v n "BatchNorm"
  setInt k "axis" (.int (-1))
  setFlag k "scale" (.bool b.gamma.isSome)
  setFlag k "bias" (.bool b.beta.isSome)
  setFloat k "epsilon" (.float b.epsilon)
  match b.gamma with
  | some xs => setWeight v.name "scale" (floats xs)
  | none => pure ()
  match b.beta with
  | some xs => setWeight v.name "bias" (floats xs)
  | none => pure ()
  setWeight v.name "mean" (floats b.mean)
  setWeight v.name "var" (floats b.variance)

def scale (n : Node) (s : Scale) : Convert Unit := do
  let k ← carry v n "Scale"
  setFlag k "hasBias" (.bool s.hasBias)
  setWeight v.name "scale" (floats s.factors)
  setWeight v.name "shapeScale" (.int (← orFault .position s.shape.head?))
  if s.hasBias then
    setWeight v.name "bias" (floats s.bias)
    setWeight v.name "shapeBias" (.int (← orFault .position s.biasShape.head?))

def dense (n : Node) (d : Dense) : Convert Unit := do
  let k ← carry v n "FullyConnected"
  setInt k "units" (.int d.outputChannels)
  setFlag k "use_bias" (.bool d.hasBias)
  let t ← (Tensor.ofFloats d.weights).reshape [d.outputChannels, d.inputChannels]
  setWeight v.name "weights" (.array (← t.transpose [1, 0]))
  if d.hasBias then setWeight v.name "bias" (floats d.bias)

def padding (n : Node) (b : Border) : Convert Unit := do
  let k ← carry v n "Pad"
  let mode ← orFault .condition b.mode
  let amounts := if b.amounts.isEmpty then [(0, 0), (0, 0)] else b.amounts
  assign k [("mode", .text mode), ("pads", .ints (Padding.flat ([(0, 0)] ++ amounts ++ [(0, 0)])))]

def unsupported : Convert Unit := do
  say ("CoremlParser has not supported operator [" ++ v.name ++ "]")
  throw .property

def convertLayer (n : Node) : Convert Unit :=
  match n.kind with
  | .convolution c => convolution v n c
  | .batchNorm b => batchNorm v n b
  | .scale s => scale v n s
  | .pooling p => pooling v n p
  | .activation a => activation v n a
  | .softmax => do let _ ← carry v n "Softmax"
  | .padding b => padding v n b
  | .add => do let _ ← carry v n "Add"
  | .flatten => do let _ ← carry v n "Flatten"
  | .dense d => dense v n d
  | .concat => do let _ ← carry v n "Concat"
  | .unsupported => unsupported v

def convertItem : Convert Unit :=
  match v.item with
  | .image i => dataInput v i
  | .layer n => convertLayer v n

def convert : Convert Unit := convertAll convertItem

end NetBridge.Source.CoreMl
