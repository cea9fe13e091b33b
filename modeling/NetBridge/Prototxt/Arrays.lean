import NetBridge.Prototxt.Net

/-!
# Fused nodes and the arrays of a net

A node that is the only reader of its only parent can be merged into that parent. Stored arrays are
handed to the nodes, brought to scale, laid out with the channels last, and given names.
-/

namespace NetBridge.Prototxt

structure Fusion where
  applies : Net → (parent child : Nat) → Except Fault Bool
  merge : (parent child : Nat) → Net → Net

def redirectReader (merged parent : Nat) (output : Int) (g : Net) (reader : Nat) : Net :=
  let g := g.update reader fun n => { n with parents := n.parents.filter fun p => p.1 ≠ merged }
  g.connect reader parent output

def bypass (g : Net) (merged parent : Nat) (output : Int) : Except Fault Net := do
  let g := (g.node merged).children.foldl (redirectReader merged parent output) g
  require ((g.node parent).children.contains merged) .value
  return g.update parent fun n => { n with children := n.children.erase merged }

def fuseNode (f : Fusion) (i : Nat) : NetRun Bool := do
  let g ← current
  match (g.node i).parents with
  | [(p, output)] =>
    if (g.node p).children.length ≠ 1 then return false
    else if !(← f.applies g p i) then return false
    else
      let g ← bypass g i p output
      change fun _ => f.merge p i g
      return true
  | _ => return false

def fuse (f : Fusion) : NetRun Unit := do
  let members := (← current).members
  let fused ← members.filterM (fuseNode f)
  change fun g => g.replaced (members.filter fun i => !fused.contains i)

def rectifierFusion (kinds : Option (List String)) : Fusion where
  applies g p i := .ok (
    (match kinds with
      | none => true
      | some ks => ((g.node p).kind.map ks.contains).getD false) &&
    (g.node i).kind == some "ReLU")
  merge p _ g := g.update p fun n => { n with rectified := true }

def scalingFusion : Fusion where
  applies g p i :=
    if (g.node p).kind = some "BatchNorm" && (g.node i).kind = some "Scale" then do
      let l ← (g.node i).setting
      return l.scale.axis == 1 && l.scale.bias
    else .ok false
  merge p i g := g.update p fun n => { n with scaling := some i }

def openFusion : Fusion where
  applies _ _ _ := .error (.report .unsupported "Must be implemented by subclass.")
  merge _ _ g := g

/-! ## Stored arrays -/

def Blob.array (b : Blob) : Except Fault Tensor := do
  let sizes ←
    if b.sizes.isEmpty then pure b.oldSizes
    else if b.sizes.length ≤ 4 then pure (List.replicate (4 - b.sizes.length) 1 ++ b.sizes)
    else throw .value
  (Tensor.ofSingles b.data).reshape sizes

structure Store where
  arrays : List (String × List Tensor)
  fourAxes : Bool

def NetSpec.store (n : NetSpec) : Except Fault Store := do
  let layers := n.allLayers.filter fun l => !l.blobs.isEmpty
  let arrays ← layers.mapM fun l => do return (l.name, ← l.blobs.mapM Blob.array)
  return { arrays := arrays, fourAxes := true }

def squeezeAt (i : Nat) (ts : List Tensor) : Except Fault (List Tensor) := do
  let t ← orFault .position ts[i]?
  return ts.set i t.squeeze

def trimAxes (kind : Option String) (ts : List Tensor) : Except Fault (List Tensor) := do
  let ts ← squeezeAt 1 ts
  if kind = some "InnerProduct" then squeezeAt 0 ts else return ts

def inject (fourAxes : Bool) (name : String) (ts : List Tensor) : NetRun Unit := do
  match (← current).byName.find? name with
  | some i =>
    let kind := ((← current).node i).kind
    let ts ← if fourAxes then trimAxes kind ts else pure ts
    change fun g => g.update i fun n => { n with arrays := .listed ts }
  | none => warn ("Ignoring parameters for non-existent layer: " ++ name)

def injectAll (s : Store) : NetRun Unit := s.arrays.forM fun (name, ts) => inject s.fourAxes name ts

/-! ## Batch statistics -/

def reciprocal (scale : Tensor) : Except Fault (Elem × Float) :=
  match scale.toList with
  | [] => .ok (.int64, 0)
  | [s] =>
    if s.toFloat == 0 then .ok (.int64, 0)
    else
      let e := if scale.elem.isReal then scale.elem else .float64
      .ok (e, (Scalar.cast e (.real (1 / s.toFloat))).toFloat)
  | _ => .error .value

def scaleArray (t : Tensor) (e : Elem) (x : Float) : Except Fault Tensor :=
  if t.elem.isReal then
    .ok { t with cells := t.cells.map fun s => Scalar.cast t.elem (.real (s.toFloat * x)) }
  else if e.isReal || !t.elem.isSigned then .error { cause := .casting }
  else .ok { t with cells := t.cells.map fun s =>
    match s with
    | .int n => Scalar.cast t.elem (.int (n * Scalar.truncate x))
    | .real y => .real y }

/-- Is the array, without axes of length one, to be used that way? A single number cannot be. -/
def trimsStatistics (mean : Tensor) : Except Fault Bool :=
  match mean.squeeze.shape with
  | [] => .error .kind
  | n :: _ => .ok (n ≠ 0)

def prescale (i : Nat) : NetRun Unit := do
  let n := (← current).node i
  if n.kind ≠ some "BatchNorm" then return ()
  match n.arrays with
  | .listed [mean, variance, scale] =>
    let (e, x) ← reciprocal scale
    let trims ← trimsStatistics mean
    let trim (t : Tensor) : Tensor := if trims then t.squeeze else t
    let mean' ← scaleArray mean e x
    change fun g => g.update i fun n => { n with arrays := .listed [mean', variance, scale] }
    let variance' ← scaleArray variance e x
    change fun g => g.update i fun n => { n with arrays := .listed [trim mean', trim variance'] }
    match n.scaling with
    | none => pure ()
    | some k =>
      match ((← current).node k).arrays with
      | .listed [gamma, beta] =>
        change fun g => g.update i fun n =>
          { n with arrays := .listed [trim mean', trim variance', gamma, beta] }
      | .listed _ => throw .value
      | _ => throw .kind
  | _ => throw .condition

def prescaleAll : NetRun Unit := do (← current).members.forM prescale

/-! ## Layout -/

def layoutOrder : String → Except Fault (List Int)
  | "Convolution" | "Deconvolution" => .ok [2, 3, 1, 0]
  | "InnerProduct" => .ok [1, 0]
  | k => .error (.report .conversion ("Ordering not found for node kind: " ++ k))

def readsImage (g : Net) (i : Nat) : Except Fault Bool :=
  match g.onlyParent i with
  | .error _ => .ok false
  | .ok (p, _) => do
    let s ← known (g.node p).sizes
    if (← s.height) > 1 then return true else return (← s.width) > 1

def imageReaders (g : Net) (i : Nat) : Nat :=
  ((g.node i).children.filter fun c =>
    let k := (g.node c).kind
    k == some "Convolution" || k == some "Pooling").length

def relayImage (t : Tensor) (channels height width : Int) : Except Fault Tensor := do
  let rows : Nat ← orFault .position t.shape[0]?
  let t' ← t.reshape [Int.ofNat rows, channels, height, width]
  let t' ← t'.transpose [2, 3, 1, 0]
  let columns : Nat ← orFault .position t.shape[1]?
  t'.reshape [Int.ofNat columns, Int.ofNat rows]

def relaidArray (g : Net) (i : Nat) (t : Tensor) (order : List Int) : Except Fault Tensor := do
  let n := g.node i
  let image ← if n.kind = some "InnerProduct" then readsImage g i else pure false
  if image then
    let s ← known (← g.inputSizes i)
    let _ ← orFault .position t.shape[0]?
    relayImage t (← s.channels) (← s.height) (← s.width)
  else t.transpose order

def isRelaid (kind : Option String) : Bool :=
  match kind with
  | some k => k == "Convolution" || k == "Deconvolution" || k == "InnerProduct"
  | none => false

def relay (i : Nat) : NetRun Unit := do
  let g ← current
  let n := g.node i
  match n.arrays with
  | .absent => pure ()
  | .listed ts =>
    if isRelaid n.kind then
      let order ← layoutOrder n.kindText
      let t ← orFault .position ts[0]?
      let t' ← relaidArray g i t order
      change fun g => g.update i fun n => { n with relaid := some t' }
    else if ts.any fun t => t.rank > 1 then
      warn ("Warning: parameters not reshaped for node: " ++ n.text)
    else pure ()
  | .named t =>
    if isRelaid n.kind then throw .key
    else if t.isEmpty then pure ()
    else throw .property

def settle (i : Nat) : NetRun Unit := do
  let n := (← current).node i
  match n.relaid with
  | none => pure ()
  | some t =>
    match n.arrays with
    | .absent => throw .kind
    | .listed [] => throw .position
    | .listed (_ :: ts) =>
      change fun g => g.update i fun n => { n with arrays := .listed (t :: ts), relaid := none }
    | .named _ => throw .key

/-- Lays all arrays out anew; only with `replace` do the new ones take the place of the old. -/
def relayAll (replace : Bool) : NetRun Unit := do
  let members := (← current).members
  members.forM relay
  if replace then members.forM settle

/-! ## Names -/

def arrayNames (n : Node) (count : Nat) : Except Fault (Option (List String)) :=
  if isRelaid n.kind then do
    let l ← n.setting
    let bias := if n.kind = some "InnerProduct" then l.dense.bias else l.conv.bias
    return some (if bias then ["weights", "bias"] else ["weights"])
  else if n.kind = some "BatchNorm" then
    .ok (some (if count = 4 then ["mean", "var", "scale", "bias"] else ["mean", "var"]))
  else .ok none

def nameNode (i : Nat) : NetRun Unit := do
  let n := (← current).node i
  let entries : Option (List Value) := match n.arrays with
    | .absent => none
    | .listed ts => some (ts.map Value.array)
    | .named t => some (t.keys.map Value.text)
  match entries with
  | none => pure ()
  | some vs =>
    match ← arrayNames n vs.length with
    | none => warn ("WARNING: Unhandled parameters: " ++ n.kindText)
    | some names =>
      Run.require (names.length == vs.length)
      change fun g => g.update i fun n => { n with arrays := .named (Table.ofList (names.zip vs)) }

def nameAll : NetRun Unit := do (← current).members.forM nameNode

end NetBridge.Prototxt
