import NetBridge.Graph.Basic
import NetBridge.Prototxt.Spec
import NetBridge.Value.Basic

/-!
# Nets

A node of a net knows the nodes it reads, each with the number of the output it takes, and the nodes
that read it. Names need not be unique; the last node of a name is found by it.
-/

namespace NetBridge.Prototxt

structure Sizes where
  dims : List Int
  named : Bool := true
  deriving Inhabited

namespace Sizes

def full (dims : List Int) : Except Fault Sizes :=
  if dims.length = 4 then .ok { dims := dims } else .error .kind

def axis (s : Sizes) (i : Nat) : Except Fault Int :=
  if s.named then orFault .property s.dims[i]? else .error .property

def batch (s : Sizes) : Except Fault Int := s.axis 0
def channels (s : Sizes) : Except Fault Int := s.axis 1
def height (s : Sizes) : Except Fault Int := s.axis 2
def width (s : Sizes) : Except Fault Int := s.axis 3

end Sizes

inductive Arrays where
  | absent
  | listed (ts : List Tensor)
  | named (ts : Table Value)
  deriving Inhabited

namespace Arrays

def isSet : Arrays → Bool
  | .absent => false
  | .listed ts => !ts.isEmpty
  | .named t => !t.isEmpty

def value : Arrays → Value
  | .absent => .none
  | .listed ts => .list (ts.map .array)
  | .named t => .record t.entries

def byName? : Arrays → Option (Table Value)
  | .named t => some t
  | _ => none

def count : Arrays → Except Fault Nat
  | .absent => .error .kind
  | .listed ts => .ok ts.length
  | .named t => .ok t.size

end Arrays

structure Node where
  name : String
  kind : Option String
  spec : Option LayerSpec := none
  parents : List (Nat × Int) := []
  children : List Nat := []
  arrays : Arrays := .absent
  outputs : List String := []
  sizes : Option Sizes := none
  rectified : Bool := false
  scaling : Option Nat := none
  relaid : Option Tensor := none
  deriving Inhabited

namespace Node

def kindText (n : Node) : String := n.kind.getD "None"

def text (n : Node) : String := "[" ++ n.kindText ++ "] " ++ n.name

def settings (n : Node) : Except Fault (Option LayerSpec) :=
  match n.spec with
  | none => .ok none
  | some l => do
    let kind ← orFault .kind n.kind
    let group := handlerName kind
    let group := if group = "deconvolution" then "convolution" else group
    if l.type.hasGroup group then return some l
    else throw (.report .conversion ("Caffe parameters not found for layer kind: " ++ kind))

def setting (n : Node) : Except Fault LayerSpec := do orFault .property (← n.settings)

end Node

structure Net where
  name : Option String := none
  pool : Array Node := #[]
  members : List Nat := []
  byName : Table Nat := ∅
  deriving Inhabited

namespace Net

variable (g : Net)

def node (i : Nat) : Node := g.pool.getD i default

def nodes : List Node := g.members.map g.node

def update (i : Nat) (f : Node → Node) : Net := { g with pool := g.pool.modify i f }

def create (n : Node) : Net × Nat := ({ g with pool := g.pool.push n }, g.pool.size)

def add (i : Nat) : Net :=
  { g with members := g.members ++ [i], byName := g.byName.insert (g.node i).name i }

def replaced (members : List Nat) : Net :=
  { g with members := members, byName := Table.ofList (members.map fun i => ((g.node i).name, i)) }

def find (name : String) : Except Fault Nat :=
  g.byName.get name (.report .conversion ("Layer not found: " ++ name))

def connect (child parent : Nat) (output : Int) : Net :=
  let g := g.update child fun n => { n with parents := n.parents ++ [(parent, output)] }
  if (g.node parent).children.contains child then g
  else g.update parent fun n => { n with children := n.children ++ [child] }

def onlyParent (i : Nat) : Except Fault (Nat × Int) :=
  let n := g.node i
  match n.parents with
  | [p] => .ok p
  | ps => .error (.report .conversion ("Node (" ++ n.text ++ ") expected to have 1 parent. Found " ++
      toString ps.length ++ "."))

def inputSizes (i : Nat) : Except Fault (Option Sizes) := do
  return (g.node (← g.onlyParent i).1).sizes

def inputs : List Nat := g.members.filter fun i => (g.node i).parents.isEmpty

def outputs : List Nat := g.members.filter fun i => (g.node i).children.isEmpty

def sources (i : Nat) : List Nat := (g.node i).parents.map (·.1)

def sorted : List Nat := DepthFirst.order g.sources g.pool.size g.members

/-! ## The table of a net -/

def shapeCell (t : Tensor) : String := intTuple (t.shape.map Int.ofNat)

/-- The larger of two shapes by the number of elements; the first one counts if it has any. -/
def largest : Option (List Nat) → Nat → List (String × Value) → Except Fault (Option (List Nat))
  | best, _, [] => .ok best
  | best, most, (_, v) :: rest =>
    match v with
    | .array t =>
      if t.shape.isEmpty then .error .kind
      else if t.size > most then largest (some t.shape) t.size rest
      else largest best most rest
    | _ => .error .property

def arraysCell : Arrays → Except Fault String
  | .absent | .listed [] => .ok "--"
  | .listed (t :: _) => .ok (shapeCell t)
  | .named ts =>
    if ts.isEmpty then .ok "--"
    else do
      match ← largest none 0 ts.entries with
      | some s => return intTuple (s.map Int.ofNat)
      | none => return "None"

def sizesCell (n : Node) : String :=
  match n.sizes with
  | some s => if s.dims.isEmpty then "('-', '-')" else intTuple s.dims
  | none => "('-', '-')"

def row (n : Node) : Except Fault String := do
  let cell ← arraysCell n.arrays
  let kind ← orFault .kind n.kind
  return Text.padRight 20 kind ++ " " ++ Text.padRight 30 n.name ++ " " ++ Text.padLeft 20 cell ++
    " " ++ Text.padLeft 20 (sizesCell n)

def tableHead : List String :=
  [Text.padRight 20 "Type" ++ " " ++ Text.padRight 30 "Name" ++ " " ++ Text.padLeft 20 "Param" ++
    " " ++ Text.padLeft 20 "Output", Text.times "-" 94]

def table : Except Fault String := do
  let rows ← g.sorted.mapM fun i => row (g.node i)
  return Text.join "\n" (tableHead ++ rows)

end Net

structure Session where
  net : Net := {}
  log : List String := []
  deriving Inhabited

abbrev NetRun (α : Type) := Run Session α

def warn (line : String) : NetRun Unit := modify fun s => { s with log := s.log ++ [line] }

def change (f : Net → Net) : NetRun Unit := modify fun s => { s with net := f s.net }

def current : NetRun Net := do return (← get).net

/-! ## Windows

Extent, stride and pad on each spatial axis, and the extent of what comes out. -/

structure Window where
  whole : Bool
  kernelH : Int
  kernelW : Int
  strideH : Int
  strideW : Int
  padH : Int
  padW : Int
  deriving Repr, DecidableEq, Inhabited

def noSize : Fault := .report .value "Unable to determine kernel parameter!"

def axisSize (own : Int) (sizes : List Int) (axis : Nat) (default : Option Int := none) :
    Except Fault Int :=
  if own ≠ 0 then .ok own
  else
    match sizes with
    | [] => orFault noSize default
    | [s] => .ok s
    | ss => orFault .condition ss[axis]?

def commonSize (own common : Int) (default : Option Int := none) : Except Fault Int :=
  if own ≠ 0 then .ok own else if common ≠ 0 then .ok common else orFault noSize default

def sizeOf (own sizes axis default : Value) : Except Fault Value := do
  if own.isSet then return own
  if sizes.isSet then
    match sizes with
    | .list [s] => return .int (← s.readWhole)
    | .list ss =>
      require ((← axis.toInt) < ss.length)
      return (← Value.nth ss (← axis.toInt))
    | s =>
      let _ ← s.toScalar
      return s
  if default.isNone then throw noSize else return default

def ConvSpec.window (c : ConvSpec) : Except Fault Window := do
  let kernelH ← axisSize c.kernelH c.kernel 0
  let kernelW ← axisSize c.kernelW c.kernel 1
  let strideH ← axisSize c.strideH c.stride 0 (some 1)
  let strideW ← axisSize c.strideW c.stride 1 (some 1)
  let padH ← axisSize c.padH c.pad 0 (some 0)
  let padW ← axisSize c.padW c.pad 1 (some 0)
  return { whole := false, kernelH, kernelW, strideH, strideW, padH, padW }

def PoolSpec.window (p : PoolSpec) : Except Fault Window := do
  let (kernelH, kernelW, strideH, strideW) ←
    if p.whole then pure (0, 0, 1, 1)
    else do
      let kernelH ← commonSize p.kernelH p.kernel
      let kernelW ← commonSize p.kernelW p.kernel
      let strideH ← commonSize p.strideH p.stride (some 1)
      let strideW ← commonSize p.strideW p.stride (some 1)
      pure (kernelH, kernelW, strideH, strideW)
  let padH ← commonSize p.padH p.pad (some 0)
  let padW ← commonSize p.padW p.pad (some 0)
  return { whole := p.whole, kernelH, kernelW, strideH, strideW, padH, padW }

def hasWindow (kind : Option String) : Bool :=
  match kind with
  | some k => k == "Convolution" || k == "Pooling" || k == "Deconvolution"
  | none => false

def Node.window (n : Node) : Except Fault Window := do
  require (hasWindow n.kind)
  let l ← n.setting
  if n.kind = some "Pooling" then l.pool.window else l.conv.window

inductive Rounding where
  | down
  | up
  deriving DecidableEq

def Rounding.quotient : Rounding → Int → Int → Int
  | .down, a, b => a.fdiv b
  | .up, a, b => -((-a).fdiv b)

def reach (dilation kernel : Int) : Int := dilation * (kernel - 1) + 1

def places (r : Rounding) (extent kernel stride pad : Int) : Except Fault Int :=
  if stride = 0 then .error { cause := .zeroDivisor }
  else .ok (r.quotient (extent + 2 * pad - kernel) stride + 1)

def Window.output (w : Window) (r : Rounding) (height width dilation : Int) :
    Except Fault (Int × Int) := do
  let h ← places r height (reach dilation w.kernelH) w.strideH w.padH
  let v ← places r width (reach dilation w.kernelW) w.strideW w.padW
  return (h, v)

def spread (extent kernel stride pad : Int) : Int := stride * (extent - 1) + kernel - 2 * pad

def Node.dilation (n : Node) : Except Fault Int := do
  let l ← n.setting
  if n.kind = some "Pooling" then return 1 else return l.conv.dilation.headD 1

/-! ## Output shapes -/

def known (s : Option Sizes) : Except Fault Sizes := orFault .property s

def windowSizes (g : Net) (i : Nat) (r : Rounding) : Except Fault (List Int) := do
  let n := g.node i
  require n.spec.isSome
  let input ← g.inputSizes i
  let w ← n.window
  let dilation ← n.dilation
  let input ← known input
  let height ← input.height
  let width ← input.width
  let (h, v) ← w.output r height width dilation
  let l ← n.setting
  let channels ← if n.kind = some "Pooling" then input.channels else pure l.conv.outputs
  return [← input.batch, channels, h, v]

def spreadSizes (g : Net) (i : Nat) : Except Fault (List Int) := do
  let n := g.node i
  let input ← g.inputSizes i
  let w ← n.window
  let l ← n.setting
  let dilation ← orFault .position l.conv.dilation.head?
  let input ← known input
  let h := spread (← input.height) (reach dilation w.kernelH) w.strideH w.padH
  let v := spread (← input.width) (reach dilation w.kernelW) w.strideW w.padW
  return [← input.batch, l.conv.outputs, h, v]

def joinSizes (axis : Int) : List Int → List (Option Sizes) → Except Fault (List Int)
  | acc, [] => .ok acc
  | acc, s :: rest => do
    let a ← Value.nth acc axis
    let s ← orFault .kind s
    let b ← Value.nth s.dims axis
    let place ← orFault .position (Value.place acc.length axis)
    joinSizes axis (acc.set place (a + b)) rest

def concatSizes (g : Net) (i : Nat) : Except Fault (List Int) := do
  let axis := (← (g.node i).setting).concatAxis
  match (g.sources i).map fun p => (g.node p).sizes with
  | [] => throw .kind
  | s :: rest => joinSizes axis (← orFault .kind s).dims rest

def reshapeSizes (input : Option Sizes) (dims : List Int) : Except Fault (List Int) := do
  let sizes ← dims.zipIdx.mapM fun (d, i) => do
    if d ≠ 0 then return d
    else Value.nth (← orFault .kind input).dims i
  require (4 ≤ sizes.length) .position
  return sizes.take 4

def feedSizes (n : Node) : Option (List Int) :=
  match n.sizes with
  | some s => if s.dims.isEmpty then fromSettings else some s.dims
  | none => fromSettings
where
  fromSettings : Option (List Int) :=
    match n.settings with
    | .ok (some l) =>
      if n.kind = some "Input" then l.inputSizes.head?
      else if n.kind = some "DummyData" then l.dummySizes.head?
      else none
    | _ => none

def outputSizes (g : Net) (i : Nat) : Except Fault (Option (List Int)) := do
  let n := g.node i
  let kind ← orFault .key n.kind
  match ← orFault .key (shapeRule? kind) with
  | .identity =>
    match n.parents with
    | [] => throw .condition
    | (p, _) :: _ => return (g.node p).sizes.map (·.dims)
  | .scalar => return some [1, 1, 1, 1]
  | .unsupported =>
    throw (.report .conversion ("Output shape computation not implemented for type: " ++ kind))
  | .concat => return some (← concatSizes g i)
  | .convolution => return some (← windowSizes g i .down)
  | .pooling => return some (← windowSizes g i .up)
  | .deconvolution => return some (← spreadSizes g i)
  | .data => return feedSizes n
  | .dense =>
    let input ← known (← g.inputSizes i)
    let batch ← input.batch
    return some [batch, (← n.setting).dense.outputs, 1, 1]
  | .memory => return some (← n.setting).memorySizes
  | .reshape =>
    let input ← g.inputSizes i
    let l ← orFault .property n.spec
    return some (← reshapeSizes input l.reshaped)

structure Engine where
  blobs : Table (List Int) := ∅
  params : Table (List Tensor) := ∅
  deriving Inhabited

def setSizes (i : Nat) : NetRun Unit := do
  let dims ← outputSizes (← current) i
  let s ← Sizes.full (← orFault .kind dims)
  change fun g => g.update i fun n => { n with sizes := some s }

def paddedSizes (dims : List Int) : List Int := dims ++ List.replicate (4 - dims.length) 1

/-- Sets the sizes that the framework knows. Blobs of no node, and of more than four axes, are left
out. -/
def setEngineSizes (g : Net) (e : Engine) : Net :=
  e.blobs.entries.foldl (fun g (name, dims) =>
    match g.byName.find? name, Sizes.full (paddedSizes dims) with
    | some i, .ok s => g.update i fun n => { n with sizes := some s }
    | _, _ => g) g

def setAllSizes (engine : Option Engine) : NetRun Unit := do
  let order := (← current).sorted
  match engine with
  | none => order.forM setSizes
  | some e =>
    change fun g => setEngineSizes g e
    order.forM fun i => do
      if ((← current).node i).sizes.isNone then setSizes i

end NetBridge.Prototxt
