import NetBridge.Graph.Basic
import NetBridge.Network.Spatial
import NetBridge.Network.Layer

/-!
# Building a network from a source format

A conversion walks through the graph of its source in order and appends layers to the network. One
that stops leaves the layers so far, the unfinished one included, together with the weights and the
log.
-/

namespace NetBridge.Source

structure Builder (α σ : Type) where
  graph : Graph α := {}
  layers : Array Layer := #[]
  weights : Weights := ∅
  loaded : Bool := false
  log : List String := []
  own : σ

abbrev Build (α σ β : Type) := Run (Builder α σ) β

section

variable {α σ β : Type}

def say (line : String) : Build α σ Unit := modify fun b => { b with log := b.log ++ [line] }

def own : Build α σ σ := do return (← get).own

def modifyOwn (f : σ → σ) : Build α σ Unit := modify fun b => { b with own := f b.own }

def hasWeights : Build α σ Bool := do return (← get).loaded

def setWeight (layer name : String) (v : Value) : Build α σ Unit :=
  modify fun b => { b with weights := b.weights.insert layer ((b.weights.findD layer ∅).insert name v) }

/-! ## The graph of the source -/

variable (k : Nat) (name : String)

def vertex : Build α σ (Vertex α) := do (← get).graph.vertex name

def modifyVertex (f : Vertex α → Vertex α) : Build α σ Unit :=
  modify fun b => { b with graph := b.graph.modify name f }

def rename (name new : String) : Build α σ Unit := modifyVertex name fun v => { v with outputName := new }

def cover : Build α σ Unit := modifyVertex name fun v => { v with covered := true }

def outputNameOf : Build α σ String := do return (← vertex name).outputName

/-- A vertex is dealt with, and its output is that of another one. -/
def takeOutput (name taken : String) : Build α σ Unit := do
  cover taken
  rename taken (← outputNameOf name)

def follow (d : Graph.Direction) (name : String) (path : List Int) (mark : Bool := false) :
    Build α σ (Option (Vertex α)) := do
  let (out, g) := (← get).graph.follow d name path mark
  modify fun b => { b with graph := g }
  out

def parent? (path : List Int) (mark : Bool := false) :
    Build α σ (Option (Vertex α)) := follow .up name path mark

def parent (path : List Int) (mark : Bool := false) : Build α σ (Vertex α) := do
  orFault .property (← parent? name path mark)

def child? (path : List Int) (mark : Bool := false) :
    Build α σ (Option (Vertex α)) := follow .down name path mark

def child (path : List Int) (mark : Bool := false) : Build α σ (Vertex α) := do
  orFault .property (← child? name path mark)

/-! ## Layers -/

def newLayer : Build α σ Nat := do
  let k := (← get).layers.size
  modify fun b => { b with layers := b.layers.push {} }
  return k

def layer : Build α σ Layer := do return (← get).layers.getD k {}

def edit (f : Layer → Layer) : Build α σ Unit :=
  modify fun b => { b with layers := b.layers.modify k f }

def setName : Build α σ Unit := edit k fun l => { l with name := name }

def setOp (op : String) : Build α σ Unit := edit k fun l => { l with op := op }

def addInput : Build α σ Unit :=
  edit k fun l => { l with inputs := l.inputs ++ [name] }

def readSources (v : Vertex α) (k : Nat) (start : Nat := 0) (stop : Option Nat := none) :
    Build α σ Unit := do
  let stop := stop.getD v.sources.length
  ((List.range stop).drop start).forM fun i => do
    addInput k (← outputNameOf (← orFault .position v.sources[i]?))

/-! ## Attributes -/

def attr : Build α σ Attr := do
  edit k (·.touch name)
  return (← layer k).attr name

def changeAttr (f : Attr → Except Fault Attr) : Build α σ Unit := do
  let old ← attr k name
  let new ← f old
  edit k fun l => { l with attrs := l.attrs.insert name new }

def setInt (v : Value) : Build α σ Unit :=
  changeAttr k name fun _ => (int64Of v).map .int

def setFloat (v : Value) : Build α σ Unit :=
  changeAttr k name fun _ => v.toFloat.map fun x => .float (Decimal.toSingle x)

def setFlag (v : Value) : Build α σ Unit :=
  changeAttr k name fun _ => v.toInt.map fun n => .flag (n != 0)

def setType (n : Int) : Build α σ Unit :=
  changeAttr k name fun _ => .ok (.type n)

def addInts (vs : List Value) : Build α σ Unit :=
  changeAttr k name fun old => (vs.mapM int64Of).map old.extendInts

def putInts (ns : List Int) : Build α σ Unit :=
  changeAttr k name fun _ => .ok (.list { ints := ns })

def addShape (dims : List Int) : Build α σ Unit :=
  changeAttr k name fun old => .ok (old.extendShapes [dims])

def mergeAttr (a : Attr) : Build α σ Unit :=
  changeAttr k name fun old => .ok (old.merge a)

def mergeShape (dims : List Int) : Build α σ Unit :=
  changeAttr k name fun old => .ok (.shape (old.dims ++ dims))

def addSize (v : Value) : Build α σ Unit := do
  let old ← attr k name
  edit k fun l => { l with attrs := l.attrs.insert name (.shape (old.dims ++ [0])) }
  let n ← int64Of v
  edit k fun l => { l with attrs := l.attrs.insert name (.shape (old.dims ++ [n])) }

def assign (vs : List (String × Value)) : Build α σ Unit := do
  let (out, l) := (← layer k).assignAll .general vs
  edit k fun _ => l
  out

def outputDims : Build α σ (List Int) := do
  orFault .position (← attr k "_output_shapes").items.shapes.head?

/-! ## Whole graphs -/

def convertAll (rule : Vertex α → Build α σ Unit) : Build α σ Unit := do
  (← get).graph.order.forM fun n => do rule (← vertex n)

end

end NetBridge.Source
