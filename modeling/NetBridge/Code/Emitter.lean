import NetBridge.Network.LayerGraph
import NetBridge.Network.Spatial

/-!
# Generating code layer by layer

Layers are taken in the order of the graph, and a layer of an unknown operator is reported and left
out. The scope holds what earlier layers have left for later ones.
-/

namespace NetBridge

/-! ## Lines of code

A line may assign a variable, and its body tells the variables it reads apart from the text around them,
so what a line defines and what it uses can be asked without reading its text. -/

namespace Code

inductive Piece where
  | text (s : String)
  | use (name : String)
  deriving DecidableEq, Repr

instance : Coe String Piece := ⟨.text⟩

structure Line where
  indent : Nat
  lead : String := ""
  target : Option String := none
  body : List Piece
  deriving DecidableEq, Repr

namespace Piece

def render : Piece → String
  | .text s => s
  | .use n => n

def operand? : Piece → Option String
  | .text _ => none
  | .use n => some n

end Piece

def operands (sep : String) : List String → List Piece
  | [] => []
  | [n] => [.use n]
  | n :: ns => .use n :: .text sep :: operands sep ns

namespace Line

def assign (indent : Nat) (target : String) (body : List Piece) : Line :=
  { indent := indent, target := some target, body := body }

def plain (indent : Nat) (s : String) : Line := { indent := indent, body := [.text s] }

def reads (l : Line) : List String := l.body.filterMap Piece.operand?

def render (l : Line) : String :=
  let lhs := match l.target with
    | some t => l.lead ++ Text.padRight 15 t ++ " = "
    | none => l.lead
  Text.times "    " l.indent ++ lhs ++ String.join (l.body.map Piece.render) ++ "\n"

end Line

def render (ls : List Line) : String := String.join (ls.map Line.render)

def block (ls : List String) : String := Text.join "\n" ls

/-- The lines of the code that read the file of the arrays. -/
def loadArrays : List String := [
  "    try:",
  "        weights_dict = np.load(weight_file).item()",
  "    except:",
  "        weights_dict = np.load(weight_file, encoding='bytes').item()",
  ""]

def loadGiven : List String :=
  ["    if weight_file == None:", "        return", ""] ++ loadArrays

end Code

/-! ## Scopes -/

def dataTypeName? (n : Int) : Option String :=
  match n with
  | 2 => some "int16"
  | 3 => some "int32"
  | 4 => some "int64"
  | 5 => some "uint8"
  | 6 => some "uint16"
  | 9 => some "float16"
  | 10 => some "float32"
  | 11 => some "float64"
  | _ => none

namespace Code

structure Scope where
  graph : LayerGraph
  weights : Weights := ∅
  loaded : Bool := false
  phase : String := "test"
  helpers : List String := []
  setup : List Line := []
  arrays : Table Value := ∅
  feeds : Table String := ∅
  detector : Value := .list []
  log : List String := []
  deriving Inhabited

abbrev Emit (α : Type) := Run Scope α

def insertName (name : String) : List String → List String
  | [] => [name]
  | n :: ns =>
    if name < n then name :: n :: ns
    else if name = n then n :: ns
    else n :: insertName name ns

def need (helper : String) : Emit Unit :=
  modify fun s => { s with helpers := insertName helper s.helpers }

def say (line : String) : Emit Unit := modify fun s => { s with log := s.log ++ [line] }

def layers : Emit (Graph Layer) := do return (← get).graph.graph

def modifyGraph (f : Graph Layer → Graph Layer) : Emit Unit :=
  modify fun s => { s with graph := { s.graph with graph := f s.graph.graph } }

def vertex (name : String) : Emit (Vertex Layer) := do (← layers).vertex name

def parent (name : String) (path : List Int := [0]) : Emit (Vertex Layer) := do
  match ← (← layers).parent name path with
  | some v => return v
  | none => throw .property

variable (v : Vertex Layer)

def input (i : Int := 0) : Emit String := do
  return (← parent v.name [i]).variableName

def variableNames (names : List String) : Emit (List String) :=
  names.mapM fun n => do return (← vertex n).variableName

def inputs : Emit (List String) := variableNames v.sources

def rename (name : String) : Emit Unit :=
  modifyGraph fun g => g.modify v.name fun w => { w with outputName := name }

def skip : Emit Unit := do rename v (← parent v.name).outputName

/-- The line that names the result of a layer. -/
abbrev define (value : List Piece) (indent : Nat := 1) : Emit (List Line) :=
  return [.assign indent v.variableName value]

def takeInputs : Emit (List String) := do
  let s ← get
  let (names, g) := s.graph.takeInputs
  set { s with graph := g }
  return names

/-! ## Attributes of a layer -/

def shown (name : String) (default : Value := .none) : Emit String := do
  return (← v.item.get name default).display

def intText (name : String) : String := toString (v.item.attr name).intValue

def floatText (name : String) : String := Decimal.floatText (v.item.attr name).floatValue

def flagText (name : String) : String := boolText (v.item.attr name).flagValue

def ints (name : String) : Emit (List Int) := do (← v.item.get name).toInts

def padPairs : Emit (List (Int × Int)) := do
  Padding.pairs (← Padding.ofValue (← v.item.get "pads"))

def outputShape : Emit (List Int) :=
  match v.item.shapes "_output_shapes" with
  | s :: _ => return s
  | [] => throw .position

def outputShapeValue : Emit (List Int) := do
  match ← (← v.item.get "_output_shapes").index 0 with
  | .shape ds => return ds
  | _ => throw .property

def complement (x : Value) : Except Fault Value :=
  match x with
  | .int n => .ok (.int (1 - n))
  | .bool b => .ok (.int (if b then 0 else 1))
  | .float x => .ok (.float (1 - x))
  | _ => .error .kind

def joined (sep : String) (ns : List Int) : String := Text.join sep (ns.map toString)

def axesText (order : Int → List Int) (rank : Int) : String := joined "," (order rank)

def pairLists (ps : List (Int × Int)) : String := listText (ps.map fun p => intList [p.1, p.2])

def pairTuples (ps : List (Int × Int)) : String := tupleText (ps.map fun p => intTuple [p.1, p.2])

/-! ## Weights -/

def layerWeights (name : String) : Emit (Table Value) := do (← get).weights.get name Fault.key

def weight (layer name : String) : Emit Tensor := do
  match ← (← layerWeights layer).get name Fault.key with
  | .array t => return t
  | _ => throw .property

def setWeight (layer name : String) (t : Value) : Emit Unit :=
  modify fun s => { s with weights := s.weights.modify layer fun w => w.insert name t }

def moveWeights (old new : String) : Emit Unit := do
  let w ← layerWeights old
  modify fun s => { s with weights := (s.weights.erase old).insert new w }

def kernelToFront (layer : String) (dim : Int) : Emit Unit := do
  let t ← weight layer "weights"
  setWeight layer "weights" (.array (← t.transpose (Axes.kernelChannelsFirst dim)))

def flatChannelsFirst (dim : Nat) : List Int :=
  [(dim : Int) - 2] ++ (List.range (dim - 2)).map Int.ofNat ++ [(dim : Int) - 1]

def relayRows (shape : List Int) (t : Tensor) : Except Fault Tensor := do
  if shape.length > 2 then
    let t' ← t.reshape (shape.drop 1 ++ [-1])
    let t' ← t'.transpose (flatChannelsFirst shape.length)
    t'.reshape (t.shape.map Int.ofNat)
  else return t

def unflattened : Nat → Vertex Layer → Emit (Vertex Layer)
  | 0, v => return v
  | fuel + 1, v => do
    if v.item.op = "Flatten" then unflattened fuel (← parent v.name) else return v

def denseSource : Emit (Vertex Layer) := do
  unflattened (← layers).vertices.size (← parent v.name)

def denseMatrix : Emit Tensor := do
  let shape ← outputShape (← denseSource v)
  let t ← weight v.name "weights"
  let t ← relayRows shape t
  t.transpose [1, 0]

/-! ## Emitters -/

abbrev LayerRule := Vertex Layer → Emit (List Line)

def unknown : LayerRule := fun v => do
  say v.name
  return []

def ruleOr (target : String) (rule : String → Option LayerRule) : LayerRule := fun v =>
  match rule v.item.op with
  | some r => r v
  | none => do
    say (target ++ " has not supported operator [" ++ v.item.op ++ "].")
    unknown v

def emitAll (rule : LayerRule) : Emit (List (String × List Line)) := do
  (← layers).order.mapM fun n => do return (n, ← rule (← vertex n))

def allLines (code : List (String × List Line)) : List Line := code.flatMap (·.2)

def helperText (helper : String → Option String) : Emit String := do
  let texts ← (← get).helpers.mapM fun h => do
    match helper h with
    | some t => return t ++ "\n"
    | none => throw .property
  return String.join texts

def elementType : Emit String :=
  match dataTypeName? (v.item.attr "dtype").typeValue with
  | some n => return n
  | none => throw .key

def lowered (v : Value) (k : Int) : Except Fault Value :=
  match v with
  | .int n => .ok (.int (n - k))
  | .bool b => .ok (.int ((if b then 1 else 0) - k))
  | .float x => .ok (.float (x - Float.ofInt k))
  | _ => .error .kind

def doubledLess (v : Value) : Except Fault Value :=
  match v with
  | .int n => .ok (.int (2 * n - 1))
  | .bool b => .ok (.int (if b then 1 else -1))
  | .float x => .ok (.float (x * 2 - 1))
  | _ => .error .kind

def isText (v : Value) (s : String) : Bool :=
  match v with
  | .text t => t == s
  | _ => false

inductive AutoPad where
  | valid
  | same
  | other (s : String)

def AutoPad.ofValue? : Value → Except Fault (Option AutoPad)
  | .text s =>
    if s = "" then .ok none
    else if s = "VALID" then .ok (some .valid)
    else if Text.startsWith s "SAME" then .ok (some .same)
    else .ok (some (.other s))
  | w => if w.isSet then .error .property else .ok none

def autoPad? : Emit (Option AutoPad) := do
  AutoPad.ofValue? (← v.item.get "auto_pad")

end Code

end NetBridge
