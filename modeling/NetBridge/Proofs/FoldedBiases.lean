import NetBridge.Proofs.TensorFlowOperands
import NetBridge.Proofs.LayerFrames
import NetBridge.Proofs.NodeListing
import NetBridge.Source.Cntk

/-!
# Biases folded into layers

A convolution or matrix product takes over the sum that comes next, if it adds a bias. Next is the first reader
(`Next`); another that reads the layer without the bias reads it with the bias then.
-/

namespace NetBridge.Source

open Run Sight Option Graph TensorFlow

-- rules with many steps
set_option synthInstance.maxSize 20000

variable {α σ κ β γ : Type}

/-! ## Steps that leave the graph -/

variable {s : Sight α κ}

namespace Sight

class Full (s : Sight α κ) : Prop where
  full : ∀ m, s.names m

theorem Calm.outputs_eq [hs : s.Full] {b b' : Builder α σ} (h : s.Calm b b') : Source.outputs b' = Source.outputs b :=
  funext fun m => h.outputs m (hs.full m)

instance (priority := low) (x : Build α σ β) [hx : Stays s.Still x] : Stays s.Calm x :=
  hx.mono .refl fun _ _ _ h h' => h.trans h'.toCalm

instance (priority := low) (x : Build α σ β) [hx : Quiet x] : Stays s.Calm x :=
  hx.mono (fun _ => ⟨rfl, rfl⟩) fun _ _ _ h h' => h.trans (.of_graph h'.1)

theorem stays_modify_calm {f : Builder α σ → Builder α σ} (hf : ∀ b, (f b).graph = b.graph) :
    Stays s.Calm (modify f : Build α σ Unit) := ⟨fun _ => .modify fun b' h => h.trans (.of_graph (hf b'))⟩

instance (k : Nat) (f : Layer → Layer) : Stays s.Calm (edit k f : Build α σ Unit) := stays_modify_calm fun _ => rfl

instance (k : Nat) (name : String) : Stays s.Calm (setName k name : Build α σ Unit) := by
  unfold setName; infer_instance

instance (k : Nat) (name : String) : Stays s.Calm (addInput k name : Build α σ Unit) := by
  unfold addInput; infer_instance

instance : Stays s.Calm (newLayer : Build α σ Nat) := by
  have : Stays s.Calm (modify fun b => { b with layers := b.layers.push {} } : Build α σ Unit) :=
    stays_modify_calm fun _ => rfl
  unfold newLayer
  infer_instance

def Shape (s : Sight α κ) (b b' : Builder α σ) : Prop := s.vertices b' = s.vertices b

instance (priority := low) (x : Build α σ β) [hx : Stays s.Calm x] : Stays s.Shape x :=
  hx.mono (fun _ => .of_graph rfl) fun _ _ _ h h' => h'.vertices.trans h

theorem vertices_rename (b : Builder α σ) (m new : String) :
    s.vertices { b with graph := b.graph.modify m fun u => { u with outputName := new } } = s.vertices b :=
  vertices_modify (f := fun u => { u with outputName := new }) (fun _ => rfl) m b

instance (m new : String) : Stays s.Shape (rename m new : Build α σ Unit) :=
  ⟨fun _ => .modify fun b' h => (vertices_rename b' m new).trans h⟩

instance (n t : String) : Stays s.Shape (takeOutput n t : Build α σ Unit) := by unfold takeOutput; infer_instance

end Sight

/-! ## Turns -/

def turn (rule : Vertex α → Build α σ Unit) (n : String) : Build α σ Unit := do rule (← vertex n)

structure Turn (rule : Vertex α → Build α σ Unit) (b₀ : Builder α σ) (n : String) (b b' : Builder α σ) : Prop where
  before : ∃ done rest, b₀.graph.order = done ++ n :: rest ∧ (done.forM (turn rule)).outcome b₀ = (.ok (), b)
  outcome : (turn rule n).outcome b = (.ok (), b')

variable {b b' : Builder α σ} {n : String}

section
variable {rule : Vertex α → Build α σ Unit} {b₀ : Builder α σ} {v : Vertex α}

theorem Turn.vertices (h : Turn rule b₀ n b b') (hrule : ∀ v, Stays s.Shape (rule v)) :
    s.vertices b = s.vertices b₀ := by
  obtain ⟨done, rest, -, hb⟩ := h.before
  have hturn (m : String) : Stays s.Shape (turn rule m) := .bind inferInstance hrule
  exact keeps_forM (fun m _ => (hturn m).keeps b₀) b₀ rfl () b hb

theorem Turn.found (h : Turn rule b₀ n b b') (hrule : ∀ v, Stays s.Shape (rule v))
    (hv : b₀.graph.vertices.find? n = some v) :
    ∃ u, b.graph.vertices.find? n = some u ∧ s.vertex u = s.vertex v ∧ (rule u).outcome b = (.ok (), b') := by
  obtain ⟨u, hfind, hrun⟩ := vertex_bind_eq_ok h.outcome
  refine ⟨u, hfind, ?_, hrun⟩
  have hsame := congrFun (h.vertices hrule) n
  rw [Sight.vertices, Sight.vertices, hfind, hv] at hsame
  exact some.inj hsame

end

def Next (takes : κ → κ → Prop) (V : String → Option (Vertex κ)) (n t : String) : Prop :=
  ∃ v w, V n = some v ∧ V t = some w ∧ v.targets.head? = some t ∧ takes v.item w.item

/-- From one builder to another, a vertex takes over the next one: that one is dealt with, and its output is that of
the vertex. No other output gets a new name. -/
structure Folds (takes : κ → κ → Prop) (V : String → Option (Vertex κ)) (n : String) (b b' : Builder α σ) : Prop where
  aliased : ∀ t, outputs b' t ≠ outputs b t → Next takes V n t
  next : ∀ t, Next takes V n t → marked b' t = true ∧ (outputs b n = some n → outputs b' t = some n)

/-- The same for the vertices of a source. Nothing else reads the layer exactly if it has one reader. -/
structure FoldsFirst (s : Sight α κ) (takes : κ → κ → Prop) (b₀ : Builder α σ) (n : String)
    (b b' : Builder α σ) : Prop extends Folds takes (s.vertices b₀) n b b' where
  alone : b₀.graph.Mirrored → ∀ t, Next takes (s.vertices b₀) n t →
    ((∀ u, b₀.graph.Feeds n u → u = t) ↔ b₀.graph.targetsOf n = [t])

def TakesNext (s : Sight α κ) (takes : κ → κ → Prop) (kind : α → Prop) (rule : Vertex α → Build α σ Unit)
    (b₀ : Builder α σ) : Prop :=
  ∀ n b b' v, Turn rule b₀ n b b' → b.layers.size < b'.layers.size → b₀.graph.vertices.find? n = some v →
    kind v.item → FoldsFirst s takes b₀ n b b'

variable {takes : κ → κ → Prop} {V : String → Option (Vertex κ)} {t q : String} {v w : Vertex κ}

/-- The vertex is next and nothing else reads the layer: with every edge in both directions, this says that the
layer has one reader. -/
theorem readers_iff {g : Graph α} (hm : g.Mirrored) (ht : (g.targetsOf n).head? = some t) :
    (∀ u, g.Feeds n u → u = t) ↔ g.targetsOf n = [t] := by
  constructor
  · intro h
    have hall (u : String) (hu : u ∈ g.targetsOf n) : u = t := h u (hm.backed n u hu)
    match g.targetsOf n, ht, hall, hm.targets_nodup n with
    | [t'], ht, _, _ => rw [some.inj ht]
    | t' :: u :: ts, _, hall, hnodup =>
      have hu := hall u (by simp)
      have ht' := hall t' (by simp)
      simp [hu, ht'] at hnodup
  · intro h u hu
    have := hm.mirrored n u hu
    rw [h] at this
    exact List.mem_singleton.mp this

theorem Next.alone {s : Sight α κ} (ht : Next takes (s.vertices b) n t) (hm : b.graph.Mirrored) :
    (∀ u, b.graph.Feeds n u → u = t) ↔ b.graph.targetsOf n = [t] := by
  obtain ⟨v, w, hv, -, ht, -⟩ := ht
  obtain ⟨u, hu, rfl⟩ := map_eq_some_iff.mp hv
  refine readers_iff hm ?_
  rw [targetsOf_of_find? hu]
  exact ht

theorem Folds.of_same (h : outputs b' = outputs b) (hno : ∀ t, ¬Next takes V n t) : Folds takes V n b b' :=
  ⟨fun t ht => absurd (congrFun h t) ht, fun t ht => absurd ht (hno t)⟩

theorem not_next (hv : V n = some v) (h : ∀ t w, v.targets.head? = some t → V t = some w → ¬takes v.item w.item)
    (t : String) : ¬Next takes V n t := by
  rintro ⟨v', w, hv', hw, ht, htakes⟩
  obtain rfl : v = v' := by rw [hv] at hv'; exact some.inj hv'
  exact h t w ht hw htakes

theorem Folds.of_update (hv : V n = some v) (hw : V t = some w) (ht : v.targets.head? = some t)
    (htakes : takes v.item w.item) (h : outputs b' = Function.update (outputs b) t (some q))
    (hq : outputs b n = some n → q = n) (hmark : marked b' t = true) : Folds takes V n b b' := by
  constructor
  · intro x hx
    by_cases hxt : x = t
    · subst hxt
      exact ⟨v, w, hv, hw, ht, htakes⟩
    · rw [h, Function.update_of_ne hxt] at hx
      exact absurd rfl hx
  · rintro x ⟨v', w', hv', -, hx, -⟩
    obtain rfl : v = v' := by rw [hv] at hv'; exact some.inj hv'
    obtain rfl : t = x := by rw [ht] at hx; exact some.inj hx
    refine ⟨hmark, fun hn => ?_⟩
    rw [h, Function.update_self, hq hn]

/-! ## Steps of folding -/

variable {x : Build α σ β} {P : Builder α σ → Prop}

variable {k : Nat}

section
variable {name op : String}

theorem keeps_calm [hx : Stays s.Calm x] : Keeps (s.Calm b) x := hx.keeps b

theorem keeps_folds [s.Full] [hx : Stays s.Calm x] : Keeps (Folds takes V n b) x := by
  intro b' hb a b'' h
  have hcalm := hx.keeps b' b' (.of_graph rfl) a b'' h
  refine ⟨fun t ht => hb.aliased t ?_, fun t ht => ?_⟩
  · rwa [hcalm.outputs_eq] at ht
  · obtain ⟨hmark, hout⟩ := hb.next t ht
    refine ⟨hcalm.marked t hmark, fun hn => ?_⟩
    rw [hcalm.outputs_eq]
    exact hout hn

theorem vertex_seen (hP : ∀ b', P b' → s.Calm b b') :
    Gets P (vertex t : Build α σ (Vertex α)) fun u => s.vertices b t = some (s.vertex u) :=
  (vertex_found t).post fun _ b' h => ⟨h.1, by rw [← (hP b' h.1).vertices]; exact s.seen h.2⟩

theorem outputNameOf_found [s.Full] (hP : ∀ b', P b' → s.Calm b b') :
    Gets P (outputNameOf t : Build α σ String) fun q => outputs b t = some q :=
  outputNameOf_outputs.post fun _ b' h => ⟨h.1, by rw [← (hP b' h.1).outputs_eq]; exact h.2⟩

theorem outputs_rename {b : Builder α σ} (h : s.vertices b t = some w) :
    outputs { b with graph := b.graph.modify t fun u => { u with outputName := q } } =
      Function.update (outputs b) t (some q) := by
  funext x
  rw [outputs, Graph.modify, Table.find?_modify]
  by_cases hx : x = t
  · subst hx
    obtain ⟨u, hu, -⟩ := map_eq_some_iff.mp h
    simp [hu]
  · rw [if_neg (Ne.symm hx), Function.update_of_ne hx]
    rfl

theorem marked_rename (b : Builder α σ) (m : String) :
    marked { b with graph := b.graph.modify t fun u => { u with outputName := q } } m = marked b m := by
  simp only [marked, Graph.modify, Table.find?_modify]
  split
  · rw [Option.any_map]
  · rfl

theorem marked_cover {b : Builder α σ} (h : s.vertices b t = some w) :
    marked { b with graph := b.graph.modify t fun u => { u with covered := true } } t = true := by
  obtain ⟨u, hu, -⟩ := Option.map_eq_some_iff.mp h
  simp [marked, Graph.modify, hu]

theorem follow_head {d : Graph.Direction} {mark : Bool} {b' : Builder α σ} {o : Option (Vertex α)}
    (hv : s.vertices b n = some v) (h : (follow d n [0] mark).outcome b = (.ok o, b')) : o = none ∧ d.next v = [] ∨
      ∃ t u, o = some u ∧ (d.next v).head? = some t ∧ s.vertices b t = some (s.vertex u) := by
  obtain ⟨u, hu, rfl⟩ := map_eq_some_iff.mp hv
  have hnext : d.next (s.vertex u) = d.next u := by cases d <;> rfl
  rw [hnext]
  obtain ⟨_, hu', h⟩ := follow_first_cases (follow_eq_ok h).1
  cases hu.symm.trans hu'
  refine h.imp id fun ⟨t, w, ho, ht, hw⟩ => ⟨t, w, ho, ht, ?_⟩
  have hsame : s.vertices { b with graph := if mark then b.graph.modify t fun w => { w with covered := true }
      else b.graph } = s.vertices b := by
    split
    · exact (still_cover t b).vertices
    · rfl
  rw [← hsame]
  exact s.seen hw

theorem child_found (hP : ∀ b', P b' → s.Calm b b') (hv : s.vertices b n = some v) :
    Gets P (child? n [0]) fun o => (o = none ∧ v.targets = [] ∨
      ∃ t u, o = some u ∧ v.targets.head? = some t ∧ s.vertices b t = some (s.vertex u)) := by
  intro b' hb o b'' h
  have hfound := follow_head ((congrFun (hP b' hb).vertices n).trans hv) h
  rw [(hP b' hb).vertices] at hfound
  refine ⟨?_, hfound⟩
  obtain ⟨-, rfl⟩ := follow_eq_ok h
  rw [follow_unmarked]
  exact hb

theorem cover_marked (hw : s.vertices b t = some w) :
    Triple (s.Calm b) (cover t : Build α σ Unit) fun _ b' => s.Calm b b' ∧ marked b' t = true := by
  refine .modify fun b' hb => ⟨hb.trans (still_cover t b').toCalm, ?_⟩
  rw [← hb.vertices] at hw
  exact marked_cover hw

theorem takeOutput_folds [s.Full] (hv : s.vertices b n = some v) (hw : s.vertices b t = some w)
    (ht : v.targets.head? = some t) (htakes : takes v.item w.item) :
    Triple (s.Calm b) (takeOutput n t : Build α σ Unit) fun _ => Folds takes (s.vertices b) n b := by
  refine (cover_marked hw).bind fun _ => (outputNameOf_found fun _ h => h.1).bind_of fun q hq => .modify fun b' hb => ?_
  obtain ⟨hb, hmark⟩ := hb
  refine .of_update (q := q) hv hw ht htakes ?_ (fun h => ?_) ?_
  · rw [← hb.vertices] at hw
    rw [outputs_rename hw, hb.outputs_eq]
  · rw [hq] at h
    exact some.inj h
  · rw [marked_rename]
    exact hmark

/-- A layer without readers, or whose first reader it does not take over. -/
theorem folds_none [s.Full] [hx : Stays s.Calm x] (hP : ∀ b', P b' → s.Calm b b') (hv : s.vertices b n = some v)
    (hno : ∀ t w, v.targets.head? = some t → s.vertices b t = some w → ¬takes v.item w.item) :
    Triple P x fun _ => Folds takes (s.vertices b) n b :=
  (hx.keeps b).imp hP fun _ _ h => .of_same h.outputs_eq (not_next hv hno)

theorem not_takes {u : Vertex α} (ht : v.targets.head? = some t) (hu : s.vertices b t = some (s.vertex u))
    (hno : ¬takes v.item (s.item u.item)) (t' : String) (w : Vertex κ) (ht' : v.targets.head? = some t')
    (hw : s.vertices b t' = some w) : ¬takes v.item w.item := by
  obtain rfl : t = t' := by rw [ht] at ht'; exact some.inj ht'
  obtain rfl : s.vertex u = w := by rw [hu] at hw; exact some.inj hw
  exact hno

end

/-- Enough that a rule folds where a vertex of the kind gets a layer, whatever was done before. -/
theorem takesNext {rule : Vertex α → Build α σ Unit} {b₀ : Builder α σ} (kind : κ → Prop)
    (hnamed : ∀ m v, b₀.graph.vertices.find? m = some v → v.name = m) (hshape : ∀ v, Stays s.Shape (rule v))
    (hrule : ∀ b v, (∀ m u, s.vertices b m = some u → u.name = m) → b.graph.vertices.find? v.name = some v →
      kind (s.item v.item) → ∀ b', (rule v).outcome b = (.ok (), b') → b.layers.size < b'.layers.size →
        Folds takes (s.vertices b) v.name b b') :
    TakesNext s takes (fun x => kind (s.item x)) rule b₀ := by
  intro n b b' v h hmade hv hop
  have hvertices := h.vertices hshape
  have hnames (m : String) (u : Vertex κ) (hu : s.vertices b m = some u) : u.name = m := by
    rw [hvertices] at hu
    obtain ⟨w, hw, rfl⟩ := map_eq_some_iff.mp hu
    exact hnamed m w hw
  obtain ⟨u, hfind, hsame, hrun⟩ := h.found hshape hv
  obtain rfl : u.name = n := (congrArg (·.name) hsame).trans (hnamed n v hv)
  have hop' : kind (s.item u.item) := (congrArg (·.item) hsame : s.item u.item = s.item v.item) ▸ hop
  exact ⟨hvertices ▸ hrule b u hnames hfind hop' b' hrun hmade, fun hm t ht => ht.alone hm⟩

/-! ## TensorFlow graphs -/

namespace TensorFlow

instance : sight.Full := ⟨fun _ => trivial⟩

variable {s : Sight Layer κ}

instance (v : Vertex Layer) : Stays s.Shape (passOn v : Build Layer σ Unit) := by unfold passOn; infer_instance

instance (k : Nat) (t : String) : Stays s.Shape (takeSum k t : Build Layer σ Unit) := by unfold takeSum; infer_instance

instance (v : Vertex Layer) (k : Nat) (last : Vertex Layer) :
    Stays s.Shape (closeChain v k last : Build Layer σ Unit) := by unfold closeChain; infer_instance

section
variable {takes : String → String → Prop} {b : Builder Layer σ} {v : Vertex Layer} {k : Nat}

theorem takeSum_folds {w : Vertex String} (hv : b.graph.vertices.find? v.name = some v)
    (hw : sight.vertices b t = some w) (ht : (sight.vertex v).targets.head? = some t)
    (htakes : takes v.item.op w.item) : Triple (sight.Made v.name b k) (takeSum k t : Build Layer σ Unit)
      fun _ => Folds takes (sight.vertices b) v.name b := by
  refine layer_made.bind_of fun l hl => ?_
  rw [hl]
  refine .bind (Q := fun _ b' => sight.vertices b' t = some w ∧
    outputs b' = Function.update (outputs b) t (some v.name)) (.modify fun b' hb => ?_) fun _ =>
    .bind (.modify fun b' hb => ?_) fun _ => keeps_folds (s := sight)
  · rw [← hb.vertices] at hw
    rw [vertices_rename, outputs_rename hw, hb.outputs_eq]
    exact ⟨hw, rfl⟩
  · refine .of_update (sight.seen hv) hw ht htakes ?_ (fun _ => rfl) (marked_cover hb.1)
    rw [(still_cover (s := sight) t b').outputs_eq, hb.2]

/-- What is done about the first reader folds it, if the reader is asked for just if it is taken over. -/
theorem onNext_folds {P : Builder Layer σ → Prop} {asked : String → Bool}
    {take : String → Vertex Layer → Build Layer σ Unit} {otherwise : Build Layer σ Unit}
    [Stays (sight.Calm (σ := σ)) otherwise] (hP : ∀ b', P b' → sight.Calm b b')
    (hv : b.graph.vertices.find? v.name = some v) (hasked : ∀ op, asked op = true ↔ takes v.item.op op)
    (htake : ∀ t u, (sight.vertex v).targets.head? = some t → sight.vertices b t = some (sight.vertex u) →
      takes v.item.op u.item.op → Triple P (take t u) fun _ => Folds takes (sight.vertices b) v.name b) :
    Triple P (onNext v asked take otherwise) fun _ => Folds takes (sight.vertices b) v.name b := by
  have hV := sight.seen hv
  unfold onNext
  split
  · rename_i ht
    exact folds_none hP hV fun t w h => by simp [Sight.vertex, ht] at h
  · rename_i t rest ht
    have ht' : (sight.vertex v).targets.head? = some t := by simp [Sight.vertex, ht]
    refine (vertex_seen hP).bind_of fun u hu => ?_
    split
    · rename_i hyes
      exact htake t u ht' hu ((hasked _).mp hyes)
    · rename_i hno
      exact folds_none hP hV (not_takes ht' hu fun h => hno ((hasked _).mpr h))

end

def kept (skip : Vertex Layer → Bool) (rule : Vertex Layer → Build Layer σ Unit) (v : Vertex Layer) :
    Build Layer σ Unit := do
  if v.covered || skip v || (scopes v.name).any leftOut.contains then pure () else rule v

theorem takesNext_kept {skip : Vertex Layer → Bool} {rule : Vertex Layer → Build Layer σ Unit}
    {takes : String → String → Prop} {layers : List String} {b₀ : Builder Layer σ}
    (hnamed : ∀ m v, b₀.graph.vertices.find? m = some v → v.name = m) (hshape : ∀ v, Stays sight.Shape (rule v))
    (hrule : ∀ b v, (∀ m u, sight.vertices b m = some u → u.name = m) → b.graph.vertices.find? v.name = some v →
      v.item.op ∈ layers → Triple (· = b) (rule v) fun _ => Folds takes (sight.vertices b) v.name b) :
    TakesNext sight takes (fun l => l.op ∈ layers) (kept skip rule) b₀ := by
  refine takesNext (· ∈ layers) hnamed (fun v => ?_) fun b v hnames hv hop b' hrun hmade => ?_
  · unfold kept
    infer_instance
  · unfold kept at hrun
    split at hrun
    · obtain ⟨-, rfl⟩ := pure_eq_ok.mp hrun
      exact absurd hmade (Nat.lt_irrefl _)
    · exact hrule b v hnames hv hop b rfl () b' hrun

theorem mirrored_graphOf {nodes : List Layer} (h : Closed nodes)
    (hbefore : ∀ a b, Reads nodes a b → Before nodes a b) : (graphOf nodes).1.Mirrored := by
  have ht := turned_all h
  have hm : (nodes.foldl turn (unread nodes)).Mirrored := by
    refine ⟨ht.wired, ht.sources_nodup, fun a b hab => ?_⟩
    obtain ⟨hlt, hr⟩ := (ht.sources a b).mp hab
    exact (ht.targets a b).mpr ⟨hlt, hr, fun _ => hbefore a b hr⟩
  rw [graphOf_eq h]
  exact hm.congr rfl

end TensorFlow

/-! ## Graphs with a checkpoint -/

namespace Checkpoint

open Source.TensorFlow

def Takes (op sum : String) : Prop := op = "Conv2D" ∧ (sum = "Add" ∨ sum = "BiasAdd") ∨ op = "MatMul" ∧ sum = "Add"

section
variable {s : Sight Layer κ} {b : Builder Layer State} {v : Vertex Layer}

instance (op : String) : Stays s.Calm (identify v k op) := by unfold identify; infer_instance

instance (op : String) (stop : Option Nat) : Stays s.Calm (carry v op stop) := by unfold carry; infer_instance

theorem carry_made {op : String} {stop : Option Nat} :
    Triple (· = b) (carry v op stop) fun k => s.Made v.name b k :=
  newLayer_made.bind fun _ => ((setName_made v.name).bind fun _ => keeps_made).bind fun _ =>
    keeps_made.bind fun _ => .pure fun _ h => h

/-! ### Layers that take over a sum -/

theorem convolution_folds (hv : b.graph.vertices.find? v.name = some v) (hop : v.item.op = "Conv2D") :
    Triple (· = b) (convolution v) fun _ => Folds Takes (sight.vertices b) v.name b := by
  refine (carry_made (s := sight)).bind fun k => keeps_made.bind fun _ => ?_
  refine onNext_folds (fun _ h => h.toCalm) hv (by simp [Takes, hop]) fun t u ht hu htakes => ?_
  exact keeps_made.bind fun _ => takeSum_folds hv hu ht htakes

theorem matrixProduct_folds (hnames : ∀ m u, sight.vertices b m = some u → u.name = m)
    (hv : b.graph.vertices.find? v.name = some v) (hop : v.item.op = "MatMul") :
    Triple (· = b) (matrixProduct v) fun _ => Folds Takes (sight.vertices b) v.name b := by
  refine (carry_made (s := sight)).bind fun k => .pre ?_ (fun _ h => h.toCalm)
  refine keeps_calm.bind fun units => keeps_calm.bind fun _ => keeps_calm.bind fun read => keeps_calm.bind fun node =>
    keeps_calm.bind fun _ => onNext_folds (fun _ h => h) hv (by simp [Takes, hop]) fun t u ht hu htakes => ?_
  obtain rfl : u.name = t := hnames t _ hu
  exact (takeOutput_folds (sight.seen hv) hu ht htakes).bind fun _ => keeps_folds (s := sight)

/-! ### The other rules -/

theorem rule_shape {rule : Vertex Layer → Convert Unit} (h : rule? v.item.op = some rule) :
    Stays sight.Shape (rule v) := by
  unfold rule? at h
  split at h
  all_goals cases h
  all_goals
    try dsimp only [add, normChain]
    first
    | infer_instance
    | exact .step fun _ => inferInstance

instance : Stays sight.Shape (convertNode v) := by
  unfold convertNode
  split
  · rename_i h
    exact rule_shape h
  · infer_instance

end

theorem convertNode_folds {b : Builder Layer State} {v : Vertex Layer}
    (hnames : ∀ m u, sight.vertices b m = some u → u.name = m)
    (hv : b.graph.vertices.find? v.name = some v) (hop : v.item.op ∈ ["Conv2D", "MatMul"]) :
    Triple (· = b) (convertNode v) fun _ => Folds Takes (sight.vertices b) v.name b := by
  simp only [List.mem_cons, List.not_mem_nil, or_false] at hop
  unfold convertNode
  rcases hop with hop | hop
  · rw [hop]
    exact convolution_folds hv hop
  · rw [hop]
    exact matrixProduct_folds hnames hv hop

end Checkpoint

/-! ## Frozen graphs -/

namespace Frozen

open Source.TensorFlow

def Takes (op sum : String) : Prop :=
  op = "Conv2D" ∧ (sum = "Add" ∨ sum = "BiasAdd") ∨ op = "MatMul" ∧ sum = "BiasAdd"

section
variable {s : Sight Layer κ} {b : Builder Layer Unit} {v : Vertex Layer}

instance (op : String) : Stays s.Calm (identify v k op) := by unfold identify; infer_instance

instance (op : String) (stop : Option Nat) (start : Nat) : Stays s.Calm (carry v op stop start) := by
  unfold carry; infer_instance

theorem carry_made {op : String} {stop : Option Nat} {start : Nat} :
    Triple (· = b) (carry v op stop start) fun k => s.Made v.name b k :=
  newLayer_made.bind fun _ => ((setName_made v.name).bind fun _ => keeps_made).bind fun _ =>
    keeps_made.bind fun _ => .pure fun _ h => h

/-! ### Layers that take over a sum -/

theorem convolution_folds (hv : b.graph.vertices.find? v.name = some v) (hop : v.item.op = "Conv2D") :
    Triple (· = b) (convolution v) fun _ => Folds Takes (sight.vertices b) v.name b := by
  refine (carry_made (s := sight)).bind fun k => keeps_made.bind fun _ => ?_
  refine onNext_folds (fun _ h => h.toCalm) hv (by simp [Takes, hop]) fun t u ht hu htakes => ?_
  exact keeps_made.bind fun bias => (takeSum_folds hv hu ht htakes).bind fun _ => keeps_folds (s := sight)

theorem matrixProduct_folds (hv : b.graph.vertices.find? v.name = some v) (hop : v.item.op = "MatMul") :
    Triple (· = b) (matrixProduct v) fun _ => Folds Takes (sight.vertices b) v.name b := by
  refine (carry_made (s := sight)).bind fun k => .pre ?_ (fun _ h => h.toCalm)
  refine keeps_calm.bind fun behind => keeps_calm.bind fun w => keeps_calm.bind fun _ => keeps_calm.bind fun shapes =>
    keeps_calm.bind fun last => keeps_calm.bind fun units => keeps_calm.bind fun _ =>
    onNext_folds (fun _ h => h) hv (by simp [Takes, hop]) fun t u ht hu htakes => ?_
  exact (takeOutput_folds (sight.seen hv) hu ht htakes).bind fun _ => keeps_folds (s := sight)

/-! ### The other rules -/

instance (variance : Vertex Layer) : Stays sight.Shape (sumNorm v k variance) := by unfold sumNorm; infer_instance

instance : Stays sight.Shape (add v) := by
  unfold add batchChain productNorm instanceChain
  split <;> infer_instance

theorem rule_shape {rule : Vertex Layer → Convert Unit} (h : rule? v.item.op = some rule) :
    Stays sight.Shape (rule v) := by
  unfold rule? at h
  split at h
  all_goals cases h
  all_goals
    try dsimp only [requantise]
    first
    | infer_instance
    | exact .step fun _ => inferInstance

instance : Stays sight.Shape (convertNode v) := by
  unfold convertNode
  split
  · rename_i h
    exact rule_shape h
  · infer_instance

end

theorem convertNode_folds {b : Builder Layer Unit} {v : Vertex Layer} (hv : b.graph.vertices.find? v.name = some v)
    (hop : v.item.op ∈ ["Conv2D", "MatMul"]) :
    Triple (· = b) (convertNode v) fun _ => Folds Takes (sight.vertices b) v.name b := by
  simp only [List.mem_cons, List.not_mem_nil, or_false] at hop
  unfold convertNode
  rcases hop with hop | hop
  · rw [hop]
    exact convolution_folds hv hop
  · rw [hop]
    exact matrixProduct_folds hv hop

end Frozen

/-! ## CNTK functions -/

namespace Cntk

def sight : Sight Item Item := ⟨id, fun _ => True⟩

instance : sight.Full := ⟨fun _ => trivial⟩

def Takes (f sum : Item) : Prop :=
  (f.op = .ok "Convolution" ∨ f.op = .ok "Times") ∧ sum.op = .ok "Plus" ∧
    ∃ ps, sum.get "parameters" = .ok ps ∧ ps.isSet = true

section
variable {s : Sight Item κ} {b : Builder Item Objects} {v : Vertex Item}

instance (op : String) (last : Bool) (stop : Option Nat) : Stays s.Calm (carry v op last stop) := by
  unfold carry identify; infer_instance

theorem takeBias_folds (hnames : ∀ m u, sight.vertices b m = some u → u.name = m)
    (hv : b.graph.vertices.find? v.name = some v) (hop : v.item.op = .ok "Convolution" ∨ v.item.op = .ok "Times") :
    Triple (sight.Calm b) (takeBias v) fun _ => Folds Takes (sight.vertices b) v.name b := by
  have hV := sight.seen hv
  refine (child_found (fun _ h => h) hV).bind_of fun o ho => ?_
  obtain ⟨rfl, ht⟩ | ⟨t, u, rfl, ht, hu⟩ := ho
  · exact folds_none (fun _ h => h) hV fun t w h => by simp [ht] at h
  · obtain rfl : u.name = t := hnames t (sight.vertex u) hu
    refine .bind_of (.lift fun _ h _ hs => ⟨hs, h⟩) fun op hsum => ?_
    split
    · rename_i hplus
      refine folds_none (fun _ h => h) hV (not_takes ht hu fun h => hplus ?_)
      exact Except.ok.inj (hsum.symm.trans h.2.1)
    rename_i hplus
    obtain rfl : op = "Plus" := Classical.not_not.mp hplus
    refine .bind_of (.lift fun _ h _ hs => ⟨hs, h⟩)
      fun ps hps => ?_
    split
    · rename_i hset
      refine folds_none (fun _ h => h) hV (not_takes ht hu fun h => ?_)
      obtain ⟨-, -, ps', hps', hset'⟩ := h
      cases hps.symm.trans hps'
      simp [hset'] at hset
    · rename_i hset
      exact (takeOutput_folds hV hu ht ⟨hop, hsum, ps, hps, by simpa using hset⟩).bind fun _ =>
        keeps_folds (s := sight)

/-! ### The other rules -/

instance : Stays s.Shape (takeBias v) := by
  refine .step fun o => ?_
  split <;> infer_instance

instance (o : Item) : Stays s.Calm (addConstant o k) := by
  refine .step fun c => .step fun _ => .step fun _ => .step fun value => ?_
  split <;> infer_instance

instance : Stays s.Calm (batchNormalization v) := by
  refine .step fun os => .step fun inputs => .bind (.forM fun i => ?_) fun _ => ?_
  · dsimp only
    split <;> infer_instance
  · infer_instance

theorem rule_shape {op : String} {rule : Vertex Item → Convert Unit} (h : rule? op = some rule) :
    Stays s.Shape (rule v) := by
  unfold rule? at h
  split at h
  all_goals cases h
  all_goals
    try dsimp only [convolution, convolutionBlock, maxPooling, pooling, poolSizes, binary, plus, minus, reshape, times,
      splice, dataInput, elementTimes, dropout, dense, activation, bare]
    infer_instance

instance : Stays s.Shape (convertItem v) := by
  refine .step fun op => ?_
  split
  · rename_i h
    exact rule_shape h
  · unfold unknown
    infer_instance

theorem convertItem_folds (hnames : ∀ m u, sight.vertices b m = some u → u.name = m)
    (hv : b.graph.vertices.find? v.name = some v) (hop : v.item.op = .ok "Convolution" ∨ v.item.op = .ok "Times") :
    Triple (· = b) (convertItem v) fun _ => Folds Takes (sight.vertices b) v.name b := by
  have hcarry {op : String} : Triple (· = b) (carry v op) fun _ => sight.Calm b := by
    have : Stays sight.Calm (carry v op) := inferInstance
    exact (this.keeps b).pre fun _ h => h ▸ .of_graph rfl
  have hbias := takeBias_folds hnames hv hop
  rcases hop with hop | hop
  all_goals
    refine .bind_of (.lift fun _ h _ hs => ⟨hs, h⟩) fun op hop' => ?_
    cases hop.symm.trans hop'
  · refine hcarry.bind fun k => keeps_calm.bind fun _ => keeps_calm.bind fun inputs => keeps_calm.bind fun w =>
      keeps_calm.bind fun t => keeps_calm.bind fun kernel => keeps_calm.bind fun _ => keeps_calm.bind fun _ =>
      keeps_calm.bind fun attributes => keeps_calm.bind fun window => hbias.bind fun bias => keeps_folds (s := sight)
  · refine hcarry.bind fun k => keeps_calm.bind fun os => keeps_calm.bind fun parameters => keeps_calm.bind fun i =>
      keeps_calm.bind fun p => keeps_calm.bind fun value => keeps_calm.bind fun w => keeps_calm.bind fun _ =>
      keeps_calm.bind fun units => hbias.bind fun bias => keeps_folds (s := sight)

end

/-! ### Functions by name -/

structure Filed (g : Graph Item) : Prop extends g.Mirrored where
  named : ∀ m u, g.bareOf m = some u → u.name = m ∧ u.item.uid = m ∧ u.outputName = m

variable {g : Graph Item}

theorem Filed.find? (h : Filed g) {m : String} {u : Vertex Item}
    (hu : g.vertices.find? m = some u) : u.name = m ∧ u.item.uid = m ∧ u.outputName = m :=
  h.named m u.bare (by rw [bareOf, hu]; rfl)

variable {o : Item} {os : Objects}

theorem Filed.add (h : Filed g) (ho : o.uid ∉ g.vertices.keys) : Filed (g.add o.uid o) := by
  refine ⟨h.toMirrored.add ho o, fun m u hu => ?_⟩
  rw [bareOf_add] at hu
  split at hu
  · rename_i e
    cases hu
    exact ⟨e, e, e⟩
  · exact h.named m u hu

theorem Filed.wire {t : Traversal} (h : Filed t.graph) (o : Item) (reader : String) :
    Filed (t.wire o reader).graph := by
  have hadd : Filed (if t.graph.has o.uid then t.graph else t.graph.add o.uid o) := by
    split
    · exact h
    · rename_i hno
      exact h.add fun hmem => hno (has_iff.mpr hmem)
  refine ⟨hadd.toMirrored.connectAll [(o.uid, reader)], fun m u hu => hadd.named m u ?_⟩
  rw [Traversal.wire, bareOf_connect] at hu
  exact hu

theorem filed_visit {fuel : Nat} {t t' : Traversal} (ht : Filed t.graph)
    (h : visit os fuel t o = .ok t') : Filed t'.graph := by
  induction fuel generalizing t t' o with
  | zero =>
    cases h
    exact ht
  | succ fuel ih =>
    unfold visit at h
    split at h
    · cases h
      exact ht
    · obtain ⟨vs, -, h⟩ := bind_cases h
      refine foldlM_keeps (P := fun t : Traversal => Filed t.graph) (fun t v t' hone hp => ?_) h ht
      obtain ⟨i, -, hone⟩ := bind_cases hone
      split at hone
      · obtain ⟨f, -, hone⟩ := bind_cases hone
        exact ih (hp.wire f o.uid) hone
      · split at hone
        · cases hone
          exact hp.wire i o.uid
        · split at hone
          · cases hone
          · cases hone
            exact hp

theorem filed_graphOf {outputs : List Value} (h : graphOf os outputs = .ok g) : Filed g := by
  obtain ⟨o, -, h⟩ := bind_cases h
  obtain ⟨root, -, h⟩ := bind_cases h
  obtain ⟨t, hvisit, ⟨⟩⟩ := bind_cases h
  have hempty : Filed {} := ⟨.empty, fun m u hu => by cases hu⟩
  have ht := filed_visit (hempty.add fun hmem => by cases hmem) hvisit
  exact ⟨ht.toMirrored.congr rfl, ht.named⟩

theorem takesNext_convertItem {b₀ : Builder Item Objects} (hfiled : Filed b₀.graph) :
    TakesNext sight Takes (fun o => o.op = .ok "Convolution" ∨ o.op = .ok "Times") convertItem b₀ :=
  takesNext (s := sight) (fun o => o.op = .ok "Convolution" ∨ o.op = .ok "Times") (fun _ _ hv => (hfiled.find? hv).1)
    (fun _ => inferInstance) fun b _ hnames hv hop b' hrun _ => convertItem_folds hnames hv hop b rfl () b' hrun

end Cntk

/-! ## Conversions -/

def Checkpoint.keptRule : Vertex Layer → Checkpoint.Convert Unit :=
  TensorFlow.kept (fun v => Checkpoint.trainingStarts.any (Text.startsWith v.name)) Checkpoint.convertNode

def Frozen.keptRule : Vertex Layer → Frozen.Convert Unit := TensorFlow.kept (fun _ => false) Frozen.convertNode

/-- A convolution or matrix product takes over a bias exactly if the first of its readers adds one, whoever else reads
it. So it is read by the sum only, as it is without the bias, exactly if it has one reader. -/
theorem bias_taken_from_first_reader (nodes : List Layer) :
    (Checkpoint.convert = convertAll Checkpoint.keptRule ∧ ∀ checkpoint,
      TakesNext TensorFlow.sight Checkpoint.Takes (fun l => l.op ∈ ["Conv2D", "MatMul"]) Checkpoint.keptRule
        (Checkpoint.start nodes checkpoint)) ∧
    (Frozen.convert = convertAll Frozen.keptRule ∧ ∀ told sizes b₀, Frozen.start told nodes sizes = .ok b₀ →
      TakesNext TensorFlow.sight Frozen.Takes (fun l => l.op ∈ ["Conv2D", "MatMul"]) Frozen.keptRule b₀) ∧
    (Cntk.convert = convertAll Cntk.convertItem ∧ ∀ os outputs b₀, Cntk.start os outputs = .ok b₀ →
      b₀.graph.Mirrored ∧ TakesNext Cntk.sight Cntk.Takes
        (fun o => o.op = .ok "Convolution" ∨ o.op = .ok "Times") Cntk.convertItem b₀) := by
  refine ⟨⟨rfl, fun checkpoint => ?_⟩, ⟨rfl, fun told sizes b₀ h => ?_⟩, rfl, fun os outputs b₀ h => ?_⟩
  · exact takesNext_kept (fun _ _ hv => (named_graphOf nodes hv).1) (fun _ => inferInstance) fun _ _ hnames hv hop =>
      Checkpoint.convertNode_folds hnames hv hop
  · obtain ⟨t, -, h⟩ := bind_cases h
    obtain ⟨p, hp, h⟩ := bind_cases h
    obtain ⟨noted, -, ⟨⟩⟩ := bind_cases hp
    cases h
    exact takesNext_kept (fun _ _ hv => (named_graphOf noted hv).1) (fun _ => inferInstance) fun _ _ _ hv hop =>
      Frozen.convertNode_folds hv hop
  · obtain ⟨g, hg, ⟨⟩⟩ := bind_cases h
    have hfiled := Cntk.filed_graphOf hg
    exact ⟨hfiled.toMirrored, Cntk.takesNext_convertItem hfiled⟩

/-! ### A matrix product with one reader and with two -/

def biasedNodes (others : List Layer) : List Layer :=
  [{ name := "x", op := "Placeholder", attrs := .ofList [("shape", .shape [-1, 2])] },
   { name := "w", op := "VariableV2" },
   { name := "wr", op := "Identity", inputs := ["w"] },
   { name := "m", op := "MatMul", inputs := ["x", "wr"],
     attrs := .ofList [("_output_shapes", .list { shapes := [[-1, 3]] })] },
   { name := "c", op := "VariableV2" },
   { name := "cr", op := "Identity", inputs := ["c"] },
   { name := "s", op := "Add", inputs := ["m", "cr"] }] ++ others

abbrev biasedStart (others : List Layer) : Builder Layer Checkpoint.State :=
  Checkpoint.start (biasedNodes others) none

def atProduct (others : List Layer) : Builder Layer Checkpoint.State :=
  ((["x", "w", "c", "wr", "cr"].forM (turn Checkpoint.keptRule)).outcome (biasedStart others)).2

def behindProduct (others : List Layer) : Builder Layer Checkpoint.State :=
  ((turn Checkpoint.keptRule "m").outcome (atProduct others)).2

theorem before_biasedNodes (a b : String) (h : TensorFlow.Reads (biasedNodes []) a b) :
    TensorFlow.Before (biasedNodes []) a b := by
  obtain ⟨-, n, hn, rfl, ha⟩ := h
  have hall : ∀ n ∈ biasedNodes [], ∀ a ∈ n.inputs,
      (namesOf (biasedNodes [])).idxOf a < (namesOf (biasedNodes [])).idxOf n.name := by decide
  exact hall n hn a ha

theorem bias_taken_from_only_reader :
    marked (behindProduct []) "s" = true ∧ outputs (behindProduct []) "s" = some "m" ∧
      ∀ u, (biasedStart []).graph.Feeds "m" u → u = "s" := by
  have hturn : Turn Checkpoint.keptRule (biasedStart []) "m" (atProduct []) (behindProduct []) :=
    ⟨⟨_, ["s"], by decide +kernel, outcome_of_isSome (by decide +kernel)⟩, outcome_of_isSome (by decide +kernel)⟩
  obtain ⟨v, hv, hop⟩ : ∃ v, (biasedStart []).graph.vertices.find? "m" = some v ∧ v.item.op = "MatMul" :=
    ⟨_, rfl, rfl⟩
  have hnext : Next Checkpoint.Takes (sight.vertices (biasedStart [])) "m" "s" :=
    ⟨_, _, rfl, rfl, rfl, .inr ⟨rfl, rfl⟩⟩
  have hfolds := (bias_taken_from_first_reader (biasedNodes [])).1.2 none "m" _ _ v hturn (by decide +kernel) hv
    (by simp [hop])
  obtain ⟨hmark, hout⟩ := hfolds.next "s" hnext
  exact ⟨hmark, hout (by decide +kernel), (hfolds.alone (mirrored_graphOf ⟨by decide, by decide⟩
    before_biasedNodes) "s" hnext).mpr (by decide +kernel)⟩

/-- A product that is read with its bias by a sum and without by another node: the sum gets no layer, and the other
node reads the layer that adds the bias. -/
theorem bias_reaches_other_reader :
    let r : Layer := { name := "r", op := "Relu", inputs := ["m"] }
    Turn Checkpoint.keptRule (biasedStart [r]) "m" (atProduct [r]) (behindProduct [r]) ∧
    marked (behindProduct [r]) "s" = true ∧ outputs (behindProduct [r]) "s" = some "m" ∧
    (biasedStart [r]).graph.Feeds "m" "r" ∧
    ((Checkpoint.convert.outcome (biasedStart [r])).2.layers.toList.map fun l =>
      (l.name, l.op, l.inputs, (l.attr "use_bias").flagValue)) =
      [("x", "DataInput", [], false), ("m", "FullyConnected", ["x"], true), ("r", "Relu", ["m"], false)] := by
  refine ⟨⟨⟨_, ["s", "r"], by decide +kernel, outcome_of_isSome (by decide +kernel)⟩,
    outcome_of_isSome (by decide +kernel)⟩, by decide +kernel, by decide +kernel, ?_, by decide +kernel⟩
  exact List.mem_singleton.mpr rfl

end NetBridge.Source
