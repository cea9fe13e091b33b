import NetBridge.Prototxt.Net

/-!
# From a description to a net

A training net is first turned into one that predicts. Then the layers of the wanted phase are kept,
each becomes a node, and every blob that a layer reads is traced to the node that wrote it last.
-/

namespace NetBridge.Prototxt

/-! ## Training nets -/

structure Splits where
  labels : List String := []
  copies : Table String := ∅

def dropLabels : Splits → List LayerSpec → Except Fault (Splits × List LayerSpec)
  | s, [] => .ok (s, [])
  | s, l :: rest => do
    let kind ← l.type.kind?
    if l.bottoms.contains "label" then
      if isFinalLoss kind then
        let (s, kept) ← dropLabels s rest
        return (s, l :: kept)
      else if kind = some "Split" then dropLabels { s with labels := s.labels ++ l.tops } rest
      else dropLabels s rest
    else if kind = some "Split" then
      match l.tops, l.bottoms with
      | [], _ => dropLabels s rest
      | _, [] => throw .position
      | tops, b :: _ =>
        dropLabels { s with copies := s.copies.insertAll (tops.map fun t => (t, b)) } rest
    else
      let (s, kept) ← dropLabels s rest
      return (s, l :: kept)

def readCopied (bottoms : List String) (copy : String × String) : List String :=
  if bottoms.contains copy.1 then bottoms.erase copy.1 ++ [copy.2] else bottoms

def seeThrough (s : Splits) (layers : List LayerSpec) : List LayerSpec :=
  (layers.filter fun l => !s.labels.any l.bottoms.contains).map fun l =>
    { l with bottoms := s.copies.entries.foldl readCopied l.bottoms }

def prediction (old : Bool) (kind : Option String) (bottom : String) : LayerSpec :=
  let type : LayerType :=
    if kind = some "SoftmaxWithLoss" then (if old then .numbered 20 else .named "Softmax")
    else if old then .numbered 19 else .named "Sigmoid"
  { name := "prob", tops := ["prob"], bottoms := [bottom], type := type }

def endInPrediction (old : Bool) (layers : List LayerSpec) : Except Fault (List LayerSpec) := do
  let last ← orFault .position layers.getLast?
  let kind ← last.type.kind?
  let layers ←
    if isFinalLoss kind then do
      let bottom ← orFault .position last.bottoms.head?
      pure (layers ++ [prediction old kind bottom])
    else pure layers
  return layers.erase last

def int32Of : Value → Except Fault Int
  | .int n => if -(Nat.pow 2 31 : Int) ≤ n && n < Nat.pow 2 31 then .ok n else .error .value
  | .bool b => .ok (if b then 1 else 0)
  | _ => .error .kind

def NetSpec.deployed (n : NetSpec) (shape : Option (List Value)) : Except Fault NetSpec := do
  let old := n.layers.isEmpty
  let layers := if old then n.oldLayers else n.layers
  let kinds ← layers.mapM fun l => l.type.kind?
  let losses := (layers.zip kinds).filterMap fun (l, k) => if isFinalLoss k then some l else none
  let early := losses.dropLast
  let kept := (layers.zip kinds).filterMap fun (l, k) =>
    if early.contains l || isFeed k then none else some l
  let (splits, kept) ← dropLabels {} kept
  let kept := seeThrough splits kept
  let dims ← (shape.getD []).mapM int32Of
  let kept ← endInPrediction old kept
  let n := { n with inputs := n.inputs ++ ["data"], inputDims := n.inputDims ++ dims }
  return if old then { n with oldLayers := kept } else { n with layers := kept }

/-! ## Phases -/

def phaseName (n : Int) : Except Fault String :=
  if n = 0 then .ok "train" else if n = 1 then .ok "test" else .error .key

def layerPhase (phase : String) (l : LayerSpec) : Except Fault String := do
  let phase ← match l.included with
    | [] => pure phase
    | p :: _ => phaseName p
  if l.excluded.isEmpty then return phase
  else
    match l.included with
    | [] => throw .position
    | p :: _ => phaseName (1 - p)

def isKept (phase : String) (l : LayerSpec) : Except Fault Bool := do
  let own ← layerPhase phase l
  return own = phase && !(own = "test" && l.type.isNamed "Dropout") && !l.type.isNamed "Silence"

/-- A name for a layer whose name is taken: the name with the first free number below the count of
names, if there is one. -/
def freshName (taken : List String) (name : String) : String :=
  if taken.contains name then
    let names := (List.range (taken.length - 1)).map fun i => name ++ "_" ++ toString (i + 1)
    (names.find? fun n => !taken.contains n).getD name
  else name

def keptLayers (phase : String) : List String → List LayerSpec → Except Fault (List LayerSpec)
  | _, [] => .ok []
  | taken, l :: rest => do
    if ← isKept phase l then
      let name := freshName taken l.name
      let taken := if taken.contains name then taken else taken ++ [name]
      return { l with name := name } :: (← keptLayers phase taken rest)
    else keptLayers phase taken rest

/-! ## Nodes -/

def inputNodes (n : NetSpec) : List Node :=
  let dims := if n.inputDims.isEmpty then n.inputSizes.headD [] else n.inputDims
  n.inputs.map fun name =>
    { name := name, kind := some "Data", outputs := ["data"],
      sizes := some { dims := dims, named := false } }

def layerNode (l : LayerSpec) : Except Fault Node := do
  let kind ← l.type.kind?
  return { name := l.name, kind := kind, spec := some l,
           outputs := Text.replaceChar '/' '_' l.name :: l.tops.drop 1 }

def readBlob (written : Table Nat) (g : Net) (l : LayerSpec) (i : Nat) (blob : String) :
    Except Fault Net := do
  require (blob ≠ l.name)
  let p ← match written.find? blob with
    | some p => if p = i then g.find blob else pure p
    | none => g.find blob
  match (g.node p).spec with
  | none => return g.connect i p 0
  | some w =>
    return w.tops.zipIdx.foldl (fun g (top, k) => if top = blob then g.connect i p k else g) g

def wire : Table Nat → Net → List LayerSpec → Except Fault Net
  | _, g, [] => .ok g
  | written, g, l :: rest => do
    let i ← g.find l.name
    let g ← l.bottoms.foldlM (fun g b => readBlob written g l i b) g
    let written := written.insertAll ((l.tops.filter (· ≠ l.name)).map fun t => (t, i))
    wire written g rest

def Net.ofNodes (name : String) (nodes : List Node) : Net :=
  { name := some name, pool := nodes.toArray, members := List.range nodes.length,
    byName := Table.ofList (nodes.zipIdx.map fun (n, i) => (n.name, i)) }

structure BuildOptions where
  inputShape : Option (List Value) := none
  training : Bool := false
  phase : String := "test"
  engine : Option Engine := none

def build (n : NetSpec) (o : BuildOptions) : Except Fault Net := do
  let n ← if o.training then n.deployed o.inputShape else pure n
  let layers ← keptLayers o.phase [] n.allLayers
  let own ← layers.mapM layerNode
  let g := Net.ofNodes n.name (inputNodes n ++ own)
  let g ← wire ∅ g layers
  let (out, s) := (setAllSizes o.engine).outcome { net := g }
  out
  return s.net

end NetBridge.Prototxt
