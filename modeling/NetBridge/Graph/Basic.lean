import NetBridge.Fault
import NetBridge.Table

/-!
# Graphs

A graph of named vertices, kept in the order in which the names came in. Each vertex lists the names
of its sources and of its targets, and carries what a source format says about it.
-/

namespace NetBridge

structure Vertex (α : Type) where
  name : String
  item : α
  sources : List String := []
  targets : List String := []
  covered : Bool := false
  outputName : String := name
  deriving Inhabited

structure Graph (α : Type) where
  vertices : Table (Vertex α) := ∅
  inputs : List String := []
  outputs : List String := []
  order : List String := []
  deriving Inhabited

def variableName (s : String) : String :=
  String.ofList (s.toList.map fun c => if c = '/' || c = '-' then '_' else c)

namespace Vertex

variable {α : Type}

def variableName (v : Vertex α) : String := NetBridge.variableName v.outputName

end Vertex

namespace Graph

variable {α : Type}

def unknownVertex (name : String) : Fault :=
  .report .resource ("Graph doesn't have node [" ++ name ++ "].")

variable (g : Graph α)

def vertex (name : String) : Except Fault (Vertex α) :=
  g.vertices.get name (unknownVertex name)

def has (name : String) : Bool := g.vertices.contains name

def add (name : String) (item : α) : Graph α :=
  { g with vertices := g.vertices.insert name { name := name, item := item } }

def modify (name : String) (f : Vertex α → Vertex α) : Graph α :=
  { g with vertices := g.vertices.modify name f }

def ignoredEdge (source : String) : String :=
  "Warning: Graph Construct a self-loop node " ++ source ++ ". Ignored."

def addNew (names : List String) (name : String) : List String :=
  if names.contains name then names else names ++ [name]

/-- Connects two different vertices of the graph, once. Any other edge is left out and reported. -/
def connect (source target : String) : Graph α × List String :=
  if source = target || !g.has source || !g.has target then (g, [ignoredEdge source])
  else
    let g := g.modify source fun v => { v with targets := addNew v.targets target }
    (g.modify target fun v => { v with sources := addNew v.sources source }, [])

def connectAll (g : Graph α) : List (String × String) → Graph α × List String
  | [] => (g, [])
  | (a, b) :: es =>
    let (g, log) := g.connect a b
    let (g, log') := g.connectAll es
    (g, log ++ log')

/-! ## Walking along edges -/

inductive Direction where
  | up
  | down

def Direction.next {α : Type} : Direction → Vertex α → List String
  | .up, v => v.sources
  | .down, v => v.targets

/-- The neighbour with the given number, if there are that many; negative numbers count from the
last neighbour. -/
def step (d : Direction) (v : Vertex α) (i : Int) : Except Fault (Option String) :=
  let names := d.next v
  if (names.length : Int) ≤ i then .ok none
  else
    let j := if i < 0 then i + names.length else i
    match names[j.toNat]? with
    | some n => if 0 ≤ j then .ok (some n) else .error .position
    | none => .error .position

/-- Follows a path of neighbour numbers, marking the vertices it comes to as covered if asked to.
Gives the vertex at the end, or nothing if the path leaves the graph; the marks stay. -/
def walk (d : Direction) (mark : Bool) : Graph α → Vertex α → List Int →
    Except Fault (Option (Vertex α)) × Graph α
  | g, v, [] => (.ok (some v), g)
  | g, v, i :: path =>
    match step d v i with
    | .error f => (.error f, g)
    | .ok none => (.ok none, g)
    | .ok (some n) =>
      let g := if mark then g.modify n fun w => { w with covered := true } else g
      match g.vertex n with
      | .error f => (.error f, g)
      | .ok w => walk d mark g w path

def follow (d : Direction) (name : String) (path : List Int) (mark : Bool := false) :
    Except Fault (Option (Vertex α)) × Graph α :=
  match g.vertex name with
  | .error f => (.error f, g)
  | .ok v => walk d mark g v path

def parent (name : String) (path : List Int := [0]) :
    Except Fault (Option (Vertex α)) :=
  (g.follow .up name path).1

/-! ## The order of a graph

A vertex is listed once all its sources have been listed; vertices on or behind a cycle are never
listed. -/

abbrev Pending := Table Int

def release : Pending → List String → Pending × List String
  | p, [] => (p, [])
  | p, t :: ts =>
    let n := p.findD t 0 - 1
    let (p', out) := release (p.insert t n) ts
    (p', if n = 0 then t :: out else out)

def orderFrom (g : Graph α) : Nat → Pending → List String → List String
  | 0, _, _ => []
  | _ + 1, _, [] => []
  | fuel + 1, p, n :: queue =>
    let targets := match g.vertices.find? n with
      | some v => v.targets
      | none => []
    let (p', out) := release p targets
    n :: orderFrom g fuel p' (queue ++ out)

def sourceless : List String :=
  (g.vertices.entries.filter fun e => e.2.sources.isEmpty).map (·.1)

def targetless : List String :=
  (g.vertices.entries.filter fun e => e.2.targets.isEmpty).map (·.1)

/-- The order of a graph, starting from the given vertices. Every vertex is listed at most once as a
start and at most once by its last source. -/
def orderOf (starts : List String) : List String :=
  let pending : Pending := g.vertices.map fun _ v => v.sources.length
  orderFrom g (starts.length + g.vertices.size) pending starts

def finish : Graph α :=
  let inputs := g.inputs ++ g.sourceless
  { g with inputs := inputs, outputs := g.outputs ++ g.targetless, order := g.orderOf inputs }

end Graph

/-! ## Depth-first order

The sources of a vertex are visited before the vertex itself is listed; a vertex that has been reached
once is not visited again. -/

namespace DepthFirst

variable {α : Type} [DecidableEq α]

structure Visit (α : Type) where
  reached : List α := []
  listed : List α := []

def visit (sources : α → List α) : Nat → Visit α → α → Visit α
  | 0, s, _ => s
  | fuel + 1, s, a =>
    if a ∈ s.reached then s
    else
      let s := (sources a).foldl (visit sources fuel) { s with reached := a :: s.reached }
      { s with listed := s.listed ++ [a] }

def order (sources : α → List α) (size : Nat) (vertices : List α) : List α :=
  (vertices.foldl (visit sources (size + 1)) {}).listed

end DepthFirst

end NetBridge
