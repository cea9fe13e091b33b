import NetBridge.Source.TensorFlow
import NetBridge.Proofs.LayerFrames

/-!
# What the layers of a TensorFlow graph read

A layer reads the outputs of the sources of its vertex, by the names that these have at its turn. So what is read is a
layer, or a vertex that gets none (`Fine`), unless a chain of vertices is taken together. `Tidy` says this of a
conversion under way, `convertKept_spec` of a whole one.
-/

namespace NetBridge.Source.TensorFlow

open Run Graph List

variable {σ β γ : Type}

/-! ## The graph of a list of nodes -/

variable {g : Graph Layer} {p : Graph Layer × List String}

theorem labelled_wire (h : p.1.Labelled) (name source : String) : (wire name p source).1.Labelled := by
  refine Labelled.connect ?_ source name
  split
  · exact h
  · exact h.add _ _

theorem named_graphOf (nodes : List Layer) {m : String} {v : Vertex Layer}
    (hv : (graphOf nodes).1.vertices.find? m = some v) : v.name = m ∧ v.outputName = m := by
  have hall : (nodes.foldl (fun g n => n.inputs.foldl (wire n.name) (g.1.add n.name n, g.2))
      (nodes.foldl (fun g n => g.add n.name n) ({} : Graph Layer), [])).1.Labelled := by
    refine foldlRecOn nodes _ (motive := fun p : Graph Layer × List String => p.1.Labelled)
      (foldlRecOn nodes _ .empty fun g hg n _ => hg.add _ _) fun p hp n _ => ?_
    exact foldlRecOn n.inputs _ (motive := fun p : Graph Layer × List String => p.1.Labelled) (hp.add _ _)
      fun p hp source _ => labelled_wire hp _ _
  exact hall.find? hv

theorem grown_wire {seen : List String} {name : String} (h : p.1.Grown seen)
    (hn : name ∈ seen) (source : String) : (wire name p source).1.Grown seen := by
  have hadd : (if p.1.has source then p.1 else p.1.add source { name := source, op := "NoOp" }).Grown seen := by
    split
    · exact h
    · rename_i hno
      exact h.add (fun hs => hno (has_iff.mpr (h.seen_keys _ hs))) _
  exact hadd.connect source hn

theorem preceded_graphOf {nodes : List Layer} (hnodup : (nodes.map (·.name)).Nodup) :
    (graphOf nodes).1.Preceded (graphOf nodes).1.order := by
  have hstart : (nodes.foldl (fun g n => g.add n.name n) ({} : Graph Layer)).Grown [] :=
    foldlRecOn nodes _ (motive := fun g : Graph Layer => g.Grown []) .empty
      fun g hg n _ => hg.add not_mem_nil _
  suffices hall : ∀ (todo : List Layer) (p : Graph Layer × List String) (seen : List String), p.1.Grown seen →
      (todo.map (·.name)).Nodup → (∀ n ∈ todo, n.name ∉ seen) →
      ∃ seen', (todo.foldl (fun g n => n.inputs.foldl (wire n.name) (g.1.add n.name n, g.2)) p).1.Grown seen' by
    obtain ⟨seen, hg⟩ := hall nodes (_, []) [] hstart hnodup fun _ _ => not_mem_nil
    exact hg.preceded_order
  intro todo
  induction todo with
  | nil => exact fun p seen hp _ _ => ⟨seen, hp⟩
  | cons n todo ih =>
    intro p seen hp hnd hnew
    rw [map_cons, nodup_cons] at hnd
    have hadd : (p.1.add n.name n).Grown (n.name :: seen) :=
      (hp.add (hnew n (.head _)) n).see (mem_keys_add.mpr (.inl rfl))
    have hwired : (n.inputs.foldl (wire n.name) (p.1.add n.name n, p.2)).1.Grown (n.name :: seen) :=
      foldlRecOn n.inputs _ (motive := fun p : Graph Layer × List String => p.1.Grown (n.name :: seen)) hadd
        fun p hp source _ => grown_wire hp (.head _) source
    refine ih _ (n.name :: seen) hwired hnd.2 fun m hm => ?_
    rw [mem_cons, not_or]
    exact ⟨fun e => hnd.1 (e ▸ mem_map_of_mem hm), hnew m (.tail _ hm)⟩

theorem walk_found {d : Graph.Direction} {v w : Vertex Layer} {path : List Int}
    (h : (walk d false g v path).1 = .ok (some w)) (hv : ∃ m, g.vertices.find? m = some v) :
    ∃ m, g.vertices.find? m = some w := by
  induction path generalizing v with
  | nil =>
    cases h
    exact hv
  | cons i path ih =>
    unfold walk at h
    split at h
    · cases h
    · cases h
    · dsimp only at h
      split at h
      · cases h
      · rename_i n _ _ u hu
        exact ih h ⟨n, vertex_eq_ok.mp hu⟩

/-! ## Steps that mark vertices -/

abbrev view (names : String → Prop) : Sight Layer String := ⟨Layer.op, names⟩

abbrev sight : Sight Layer String := view fun _ => True

instance (names : String → Prop) (m key : String) :
    Stays (view names).Still (claimAttr m key : Build Layer σ Attr) := by
  have : Stays (view names).Still (modifyVertex m fun u => { u with item := u.item.touch key } :
      Build Layer σ Unit) :=
    Sight.stays_modify (Sight.still_modify (fun _ => rfl) (fun _ _ => rfl) fun _ h => h)
  unfold claimAttr
  infer_instance

def Marked (b b' : Builder Layer σ) : Prop := sight.Calm b b' ∧ headers b' = headers b

abbrev Steady (x : Build Layer σ β) : Prop := Stays Marked x

instance (priority := low) (x : Build Layer σ β) [hx : Quiet x] : Steady x :=
  hx.mono (fun _ => ⟨rfl, rfl⟩) fun _ _ _ h h' => ⟨h.1.trans (.of_graph h'.1), h'.2.trans h.2⟩

instance (priority := low) (x : Build Layer σ β) [hx : Stays sight.Still x] : Steady x :=
  hx.mono .refl fun _ _ _ h h' =>
    ⟨h.1.trans h'.toCalm, (congrArg (fun ls => ls.toList.map header) h'.layers).trans h.2⟩

instance (k : Nat) : Edits (Marked (σ := σ)) k header where
  edit _ _ _ h hf := ⟨h.1.trans (.of_graph rfl), (headers_edit hf).trans h.2⟩
  touch _ _ := rfl

section
variable {R : Builder Layer σ → Builder Layer σ → Prop} {v : Vertex Layer} {k : Nat}

instance (i : Nat) : Stays R (sourceAt v i : Build Layer σ (Vertex Layer)) := by unfold sourceAt; infer_instance

instance (i : Nat) : Stays R (inputAt v i : Build Layer σ (Vertex Layer)) := by unfold inputAt; infer_instance

instance {asked : String → Bool} {take : String → Vertex Layer → Build Layer σ Unit} {otherwise : Build Layer σ Unit}
    [∀ t u, Stays R (take t u)] [Stays R otherwise] : Stays R (onNext v asked take otherwise) := by
  unfold onNext
  split <;> infer_instance

instance (n key : String) [Stays R (claimAttr n key : Build Layer σ Attr)] :
    Stays R (claimLiteral n key : Build Layer σ LiteralTensor) := by
  refine .step fun a => ?_
  split <;> infer_instance

variable [∀ d m path mark, Stays R (follow d m path mark : Build Layer σ (Option (Vertex Layer)))]
  [∀ vs, Stays R (assign k vs : Build Layer σ Unit)]

instance (kernel : Value) : Stays R (setPads v k kernel : Build Layer σ Unit) := by
  refine .step fun w => .step fun shape => .step fun p => ?_
  split <;> infer_instance

instance (word : String) : Stays R (setPool v k word : Build Layer σ Unit) := by unfold setPool; infer_instance

end

/-! ## What is read -/

/-- A conversion of a graph: which vertices get no layer, whatever the rest of the graph is, which are the start
of a chain that is taken together, and which pass their input on; by name and operator. `distinct` tells
whether the vertices come in an order in which sources are first. -/
structure Course where
  graph : Graph Layer
  silent : (name op : String) → Bool
  chained : (name op : String) → Bool
  passes : (op : String) → Bool
  distinct : Prop

namespace Course

variable (c : Course)

def Omitted (u : Vertex Layer) : Prop := u.covered = true ∨ c.silent u.name u.item.op = true

def Fine (names : List String) (b : Builder Layer σ) (x : String) : Prop :=
  x ∈ names ∨ (∃ u, b.graph.vertices.find? x = some u ∧ c.Omitted u) ∨
    ¬ c.distinct ∧ (b.graph.vertices.find? x).isSome = true

def Ahead (name : String) (b : Builder Layer σ) (x : String) : Prop :=
  (∃ u, b.graph.vertices.find? name = some u ∧ c.chained u.name u.item.op = true) ∧
    (b.graph.vertices.find? x).isSome = true

structure Tidy (done : List String) (hs : List (String × List String)) (b : Builder Layer σ) : Prop where
  later : ∀ m, sight.vertices b m = (c.graph.vertices.find? m).map sight.vertex
  outputs : ∀ m q, outputs b m = some q → q = m ∨ c.Fine (hs.map (·.1)) b q
  ready : ∀ m ∈ done, ∀ q, Source.outputs b m = some q → c.Fine (hs.map (·.1)) b q
  reads : ∀ h ∈ hs, ∀ x ∈ h.2, c.Fine (hs.map (·.1)) b x ∨ c.Ahead h.1 b x
  made : ∀ m ∈ done, m ∈ hs.map (·.1) ∨
    ∃ u, b.graph.vertices.find? m = some u ∧ (c.Omitted u ∨ c.passes u.item.op = true)

def Making (done : List String) (k : Nat) (name : String) (b : Builder Layer σ) : Prop :=
  c.Tidy done (headers b) b ∧ ∃ hs ins, headers b = hs ++ [(name, ins)] ∧ hs.length = k

variable {c} {done names names' : List String} {hs hs' : List (String × List String)} {b b' : Builder Layer σ}
  {x name q : String} {k : Nat} {u : Vertex Layer} {seen : String → Prop}

theorem find?_later (hb : (view seen).Calm b b') (hu : b.graph.vertices.find? x = some u) :
    ∃ u', b'.graph.vertices.find? x = some u' ∧ (u'.name = u.name ∧ u'.item.op = u.item.op) ∧
      (c.Omitted u → c.Omitted u') := by
  obtain ⟨u', hu', e⟩ := Option.map_eq_some_iff.mp ((congrFun hb.vertices x).trans (Sight.seen _ hu))
  have hname : u'.name = u.name := congrArg (·.name) e
  have hop : u'.item.op = u.item.op := congrArg (·.item) e
  refine ⟨u', hu', ⟨hname, hop⟩, fun ho => ho.imp (fun hc => ?_) fun hs => by rwa [hname, hop]⟩
  have hmark := hb.marked x
  simpa [marked, hu, hu', hc] using hmark

theorem isSome_later (hb : (view seen).Calm b b') (h : (b.graph.vertices.find? x).isSome = true) :
    (b'.graph.vertices.find? x).isSome = true := by
  have hx := congrArg Option.isSome (congrFun hb.vertices x)
  rwa [Sight.vertices, Sight.vertices, Option.isSome_map, Option.isSome_map, h] at hx

theorem Fine.later (h : c.Fine names b x) (hnames : names ⊆ names') (hb : (view seen).Calm b b') :
    c.Fine names' b' x := by
  rcases h with h | ⟨u, hu, ho⟩ | ⟨hd, hs⟩
  · exact .inl (hnames h)
  · obtain ⟨u', hu', -, hom⟩ := find?_later hb hu
    exact .inr (.inl ⟨u', hu', hom ho⟩)
  · exact .inr (.inr ⟨hd, isSome_later hb hs⟩)

theorem Ahead.later (h : c.Ahead name b x) (hb : (view seen).Calm b b') : c.Ahead name b' x := by
  obtain ⟨⟨u, hu, hc⟩, hs⟩ := h
  obtain ⟨u', hu', ⟨hname, hop⟩, -⟩ := find?_later (c := c) hb hu
  exact ⟨⟨u', hu', by rwa [hname, hop]⟩, isSome_later hb hs⟩

/-- A step on: an output has the name it had, or one that may be read. -/
theorem Tidy.step (h : c.Tidy done hs b) (hnames : hs.map (·.1) ⊆ hs'.map (·.1)) (hb : (view seen).Calm b b')
    (hout : ∀ m q, Source.outputs b' m = some q → Source.outputs b m = some q ∨ c.Fine (hs'.map (·.1)) b' q)
    (hreads : ∀ h ∈ hs', ∀ x ∈ h.2, c.Fine (hs'.map (·.1)) b' x ∨ c.Ahead h.1 b' x) : c.Tidy done hs' b' where
  later m := (congrFun hb.vertices m).trans (h.later m)
  outputs m q hq := (hout m q hq).elim (fun hq => (h.outputs m q hq).imp id (·.later hnames hb)) .inr
  ready m hm q hq := (hout m q hq).elim (fun hq => (h.ready m hm q hq).later hnames hb) id
  reads := hreads
  made m hm := by
    rcases h.made m hm with hm | ⟨v, hv, hov⟩
    · exact .inl (hnames hm)
    · obtain ⟨u, hu, ⟨-, hop⟩, hom⟩ := find?_later (c := c) hb hv
      exact .inr ⟨u, hu, hov.imp hom fun hp => by rwa [hop]⟩

theorem Tidy.grow (h : c.Tidy done hs b) (hnames : hs.map (·.1) ⊆ hs'.map (·.1)) (hb : sight.Calm b b')
    (hreads : ∀ h ∈ hs', ∀ x ∈ h.2, c.Fine (hs'.map (·.1)) b' x ∨ c.Ahead h.1 b' x) : c.Tidy done hs' b' :=
  h.step hnames hb (fun m q hq => .inl (by rwa [hb.outputs m trivial] at hq)) hreads

theorem Tidy.marked (h : c.Tidy done hs b) (hb : sight.Calm b b') : c.Tidy done hs b' :=
  h.grow (.refl _) hb fun h' hh' x hx => (h.reads h' hh' x hx).imp (·.later (.refl _) hb) (·.later hb)

theorem rename_calm (b : Builder Layer σ) (n : String) : (view fun _ => False).Calm b
    { b with graph := b.graph.modify n fun v => { v with outputName := q } } :=
  (Sight.still_modify (f := fun v => { v with outputName := q }) (fun _ => rfl) False.elim (fun _ h => h) b).toCalm

theorem Tidy.rename (h : c.Tidy done hs b) (n : String) (hq : c.Fine (hs.map (·.1)) b q) :
    c.Tidy done hs { b with graph := b.graph.modify n fun v => { v with outputName := q } } := by
  have hb := rename_calm (q := q) b n
  refine h.step (.refl _) hb (fun m q' hq' => ?_) fun h' hh' x hx =>
    (h.reads h' hh' x hx).imp (·.later (.refl _) hb) (·.later hb)
  rw [Source.outputs, Graph.modify, Table.find?_modify] at hq'
  split at hq'
  · rw [Option.map_map, Option.map_eq_some_iff] at hq'
    obtain ⟨v, -, rfl⟩ := hq'
    exact .inr (hq.later (.refl _) hb)
  · exact .inl hq'

/-- What may be read in place of a source whose turn was before, or in place of any if the order is not known. -/
theorem Tidy.read (h : c.Tidy done hs b) (hdone : c.distinct → x ∈ done) (hq : Source.outputs b x = some q) :
    c.Fine (hs.map (·.1)) b q := by
  by_cases hd : c.distinct
  · exact h.ready x (hdone hd) q hq
  · rcases h.outputs x q hq with rfl | hf
    · obtain ⟨u, hu, -⟩ := Option.map_eq_some_iff.mp hq
      exact .inr (.inr ⟨hd, by rw [hu]; rfl⟩)
    · exact hf

/-! ## Steps -/

variable (c) in
def Blank (done : List String) (k : Nat) (b : Builder Layer σ) : Prop :=
  ∃ hs, headers b = hs ++ [("", [])] ∧ hs.length = k ∧ c.Tidy done hs b

theorem keeps_tidy {x : Build Layer σ β} [hx : Steady x] : Keeps (fun b => c.Tidy done (headers b) b) x := by
  intro b hb a b' h
  obtain ⟨hg, hh⟩ := hx.keeps b b ⟨.of_graph rfl, rfl⟩ a b' h
  rw [hh]
  exact hb.marked hg

theorem keeps_making {x : Build Layer σ β} [hx : Steady x] : Keeps (c.Making done k name) x := by
  intro b hb a b' h
  obtain ⟨hg, hh⟩ := hx.keeps b b ⟨.of_graph rfl, rfl⟩ a b' h
  rw [Making, hh]
  exact ⟨hb.1.marked hg, hb.2⟩

theorem headers_edit_last {f : Layer → Layer} {ins : List String} (h : headers b = hs ++ [(name, ins)]) :
    ∃ l, header l = (name, ins) ∧
      headers { b with layers := b.layers.modify hs.length f } = hs ++ [header (f l)] := by
  obtain ⟨ls, ls', hl, rfl, hl'⟩ := map_eq_append_iff.mp h
  obtain ⟨l, rfl, hd⟩ := map_eq_singleton_iff.mp hl'
  refine ⟨l, hd, ?_⟩
  rw [headers, Array.toList_modify, hl, length_map, modify_last]
  simp

theorem newLayer_blank : Triple (fun b : Builder Layer σ => c.Tidy done (headers b) b) newLayer
    fun k => c.Blank done k := by
  intro b hb k b' h
  cases h
  exact ⟨headers b, by simp [headers, header], by simp [headers], hb.marked (.of_graph rfl)⟩

theorem setName_blank : Triple (c.Blank done k) (setName k name : Build Layer σ Unit)
    fun _ => c.Making done k name := by
  refine .modify fun b ⟨hs, hh, hlen, hb⟩ => ?_
  subst hlen
  obtain ⟨l, hl, he⟩ := headers_edit_last (f := fun l => { l with name := name }) hh
  have hins : l.inputs = [] := congrArg Prod.snd hl
  have hlast : header { l with name := name } = (name, []) := by rw [header, hins]
  rw [hlast] at he
  refine ⟨?_, hs, [], he, rfl⟩
  rw [he]
  have hnames : hs.map (·.1) ⊆ (hs ++ [((name, []) : String × List String)]).map (·.1) := by simp
  refine hb.grow hnames (.of_graph rfl) fun h' hh' x hx => ?_
  rcases mem_append.mp hh' with hh' | hh'
  · exact (hb.reads h' hh' x hx).imp (·.later hnames (.of_graph (s := sight) rfl)) id
  · rw [mem_singleton.mp hh'] at hx
    cases hx

theorem setName_making : Keeps (c.Making done k name) (setName k name : Build Layer σ Unit) := by
  refine .modify fun b ⟨hb, hs, ins, hh, hlen⟩ => ?_
  subst hlen
  obtain ⟨l, hl, he⟩ := headers_edit_last (f := fun l => { l with name := name }) hh
  have hsame : headers { b with layers := b.layers.modify hs.length fun l => { l with name := name } } = headers b := by
    rw [he, hh, ← hl]
    simp [header, (Prod.mk.inj hl).1]
  rw [Making, hsame]
  exact ⟨hb.marked (.of_graph rfl), hs, ins, hh, rfl⟩

theorem addInput_making : Triple
    (fun b => c.Making done k name b ∧ (c.Fine ((headers b).map (·.1)) b x ∨ c.Ahead name b x))
    (addInput k x : Build Layer σ Unit) fun _ => c.Making done k name := by
  refine .modify fun b ⟨⟨hb, hs, ins, hh, hlen⟩, hx⟩ => ?_
  subst hlen
  obtain ⟨l, hl, he⟩ := headers_edit_last (f := fun l => { l with inputs := l.inputs ++ [x] }) hh
  obtain ⟨hname, hins⟩ := Prod.mk.inj hl
  have hlast : header { l with inputs := l.inputs ++ [x] } = (name, ins ++ [x]) := by rw [header, hname, hins]
  rw [hlast] at he
  refine ⟨?_, hs, ins ++ [x], he, rfl⟩
  rw [hh] at hb hx
  rw [he]
  have hnames : (hs ++ [(name, ins)]).map (·.1) = (hs ++ [(name, ins ++ [x])]).map (·.1) := by simp
  refine hb.grow (hnames ▸ .refl _) (.of_graph rfl) fun h' hh' y hy => ?_
  rw [← hnames]
  rcases mem_append.mp hh' with hh' | hh'
  · exact hb.reads h' (mem_append_left _ hh') y hy
  · obtain rfl := mem_singleton.mp hh'
    rcases mem_append.mp hy with hy | hy
    · exact hb.reads (name, ins) (mem_append_right _ (mem_singleton_self _)) y hy
    · rw [mem_singleton.mp hy]
      exact hx

theorem rename_tidy (n q : String) : Triple
    (fun b => c.Tidy done (headers b) b ∧ c.Fine ((headers b).map (·.1)) b q)
    (rename n q : Build Layer σ Unit) fun _ b => c.Tidy done (headers b) b :=
  .modify fun _ hb => hb.1.rename n hb.2

theorem rename_making (n q : String) : Triple
    (fun b => c.Making done k name b ∧ c.Fine ((headers b).map (·.1)) b q)
    (rename n q : Build Layer σ Unit) fun _ => c.Making done k name :=
  .modify fun _ hb => ⟨hb.1.1.rename n hb.2, hb.1.2⟩

theorem Making.fine (hb : c.Making done k name b) : c.Fine ((headers b).map (·.1)) b name := by
  obtain ⟨-, hs, ins, hh, -⟩ := hb
  left
  rw [hh]
  simp

theorem outputNameOf_making : Triple (c.Making done k name) (outputNameOf name : Build Layer σ String)
    fun q b => c.Making done k name b ∧ c.Fine ((headers b).map (·.1)) b q :=
  outputNameOf_outputs.post fun q _ h => ⟨h.1, (h.1.1.outputs name q h.2).elim (fun e => e ▸ h.1.fine) id⟩

theorem layer_making : Triple (c.Making done k name) (layer k : Build Layer σ Layer)
    fun l b => c.Making done k name b ∧ l.name = name := by
  intro b hb l b' h
  cases h
  refine ⟨hb, ?_⟩
  obtain ⟨-, hs, ins, hh, rfl⟩ := hb
  have hat : (headers b)[hs.length]? = some (name, ins) := by simp [hh]
  rw [headers, getElem?_map, Option.map_eq_some_iff] at hat
  obtain ⟨l, hl, hd⟩ := hat
  have hget : b.layers.getD hs.length {} = l := by
    have : b.layers[hs.length]? = some l := by simpa using hl
    simp [this]
  rw [hget]
  exact congrArg Prod.fst hd

theorem readSources_making {v : Vertex Layer} (hv : c.distinct → ∀ p ∈ v.sources, p ∈ done) (start : Nat)
    (stop : Option Nat) : Keeps (c.Making done k name) (readSources v k start stop : Build Layer σ Unit) :=
  keeps_readSources fun p hp => outputNameOf_outputs.bind fun _ => addInput_making.pre fun _ h =>
    ⟨h.1, .inl (h.1.1.read (fun hd => hv hd p hp) h.2)⟩

/-! ## Rules -/

section
variable (c)

structure Due (done : List String) (v : Vertex Layer) : Prop where
  known : ∃ u, c.graph.vertices.find? v.name = some u ∧ u.name = v.name ∧ u.item.op = v.item.op
  sources : c.distinct → ∀ p ∈ v.sources, p ∈ done

def Turned (done : List String) (v : Vertex Layer) (b : Builder Layer σ) : Prop :=
  c.Tidy done (headers b) b ∧ (v.name ∈ (headers b).map (·.1) ∨ ∃ u, b.graph.vertices.find? v.name = some u ∧
    (c.Omitted u ∨ c.passes u.item.op = true ∧ c.Fine ((headers b).map (·.1)) b u.outputName))

def Makes (v : Vertex Layer) (x : Build Layer σ Unit) : Prop :=
  ∀ done, c.Due done v → Triple (fun b => c.Tidy done (headers b) b) x fun _ => c.Turned done v

end

section
variable {v : Vertex Layer}

theorem Due.find? (hv : c.Due done v) (h : c.Tidy done hs b) :
    ∃ u, b.graph.vertices.find? v.name = some u ∧ u.name = v.name ∧ u.item.op = v.item.op := by
  obtain ⟨w, hw, hname, hop⟩ := hv.known
  have hlater := h.later v.name
  rw [hw] at hlater
  obtain ⟨u, hu, e⟩ := Option.map_eq_some_iff.mp hlater
  exact ⟨u, hu, (congrArg (·.name) e).trans hname, (congrArg (·.item) e).trans hop⟩

theorem parent_ahead (hv : c.Due done v) (hc : c.chained v.name v.item.op = true) (n : String) (path : List Int) :
    Triple (c.Making done k v.name) (parent n path : Build Layer σ (Vertex Layer)) fun w b =>
      c.Making done k v.name b ∧
        (c.Fine ((headers b).map (·.1)) b w.outputName ∨ c.Ahead v.name b w.outputName) := by
  intro b hb w b' h
  obtain ⟨r, _, hr, h⟩ := step_cases h
  obtain ⟨hw, rfl⟩ := lift_eq_ok.mp h
  obtain ⟨hfollow, rfl⟩ := follow_eq_ok hr
  cases r with
  | none => cases hw
  | some w' =>
    cases hw
    obtain ⟨m, hm⟩ : ∃ m, b.graph.vertices.find? m = some w := by
      unfold Graph.follow at hfollow
      split at hfollow
      · cases hfollow
      · rename_i v hv
        exact walk_found hfollow ⟨n, vertex_eq_ok.mp hv⟩
    have hread : c.Fine ((headers b).map (·.1)) b w.outputName ∨ c.Ahead v.name b w.outputName := by
      obtain ⟨u, hu, hname, hop⟩ := hv.find? hb.1
      rcases hb.1.outputs m w.outputName (by rw [outputs, hm]; rfl) with e | hf
      · refine .inr ⟨⟨u, hu, by rwa [hname, hop]⟩, ?_⟩
        rw [e, hm]
        rfl
      · exact .inl hf
    have hsame : { b with graph := (b.graph.follow .up n path false).2 } = b := by rw [follow_unmarked]
    have hall := And.intro hb hread
    rw [← hsame] at hall
    exact hall

/-! ## Layers in the making

Most steps of a rule leave the names and inputs; the others keep the promise for the layer that is being made. -/

variable (c) in
def Ongoing (done : List String) (k : Nat) (name : String) (b b' : Builder Layer σ) : Prop :=
  c.Making done k name b → c.Making done k name b'

theorem ongoing_iff {x : Build Layer σ β} : Stays (c.Ongoing done k name) x ↔ Keeps (c.Making done k name) x :=
  ⟨fun hx b hb a b' h => hx.keeps b b id a b' h hb, fun hx => ⟨fun _ b hb a b' h h₀ => hx b (hb h₀) a b' h⟩⟩

instance (priority := low) (x : Build Layer σ β) [Steady x] : Stays (c.Ongoing done k name) x :=
  ongoing_iff.mpr keeps_making

instance : Stays (c.Ongoing done k name) (setName k name : Build Layer σ Unit) := ongoing_iff.mpr setName_making

instance (m : String) : Stays (c.Ongoing done k name) (rename m name : Build Layer σ Unit) :=
  ongoing_iff.mpr ((rename_making m name).pre fun _ h => ⟨h, h.fine⟩)

instance (t : String) : Stays (c.Ongoing done k name) (takeOutput name t : Build Layer σ Unit) :=
  ongoing_iff.mpr (keeps_making.bind fun _ => outputNameOf_making.bind fun q => rename_making t q)

instance (t : String) : Stays (c.Ongoing done k name) (takeSum k t : Build Layer σ Unit) :=
  ongoing_iff.mpr (layer_making.bind fun l => .bind ((rename_making t l.name).pre fun _ h => ⟨h.1, h.2 ▸ h.1.fine⟩)
    fun _ => keeps_making)

theorem ongoing_close (hv : c.Due done v) (hc : c.chained v.name v.item.op = true) (last : Vertex Layer) :
    Stays (c.Ongoing done k v.name) (closeChain v k last : Build Layer σ Unit) :=
  ongoing_iff.mpr (keeps_making.bind fun _ => (parent_ahead hv hc last.name [0, 0]).bind fun _ =>
    addInput_making.bind fun _ => (rename_making last.name v.name).pre fun _ h => ⟨h, h.fine⟩)

theorem Making.turned (h : c.Making done k v.name b) : c.Turned done v b := by
  obtain ⟨hb, hs, ins, hh, -⟩ := h
  refine ⟨hb, .inl ?_⟩
  rw [hh]
  simp

theorem makes_silent (hv : c.silent v.name v.item.op = true) (x : Build Layer σ Unit) [Steady x] : c.Makes v x := by
  intro done hdue
  refine keeps_tidy.post fun _ b hb => ⟨hb, .inr ?_⟩
  obtain ⟨u, hu, hname, hop⟩ := hdue.find? hb
  exact ⟨u, hu, .inl (.inr (by rwa [hname, hop]))⟩

theorem makes_passOn (hv : c.passes v.item.op = true) : c.Makes v (passOn v : Build Layer σ Unit) := by
  intro done hdue
  refine .bind (Q := fun s b => c.Tidy done (headers b) b ∧
    c.Fine ((headers b).map (·.1)) b s.outputName) ?_ fun s => .modify fun b hb => ?_
  · refine .bind_of (.lift fun p hp b hb => ⟨hb, mem_of_getElem? (orFault_eq_ok.mp hp)⟩) fun p hp => ?_
    exact (vertex_found p).post fun u b hb =>
      ⟨hb.1, hb.1.read (fun hd => hdue.sources hd p hp) (by rw [outputs, hb.2]; rfl)⟩
  · have htidy := hb.1.rename v.name hb.2
    refine ⟨htidy, .inr ?_⟩
    obtain ⟨u, hu, -, hop⟩ := hdue.find? htidy
    refine ⟨u, hu, .inr ⟨by rwa [hop], ?_⟩⟩
    rw [Graph.modify, Table.find?_modify, if_pos rfl] at hu
    obtain ⟨w, -, rfl⟩ := Option.map_eq_some_iff.mp hu
    exact hb.2.later (.refl _) (rename_calm b v.name)

theorem makes_after {x : Build Layer σ Nat} {f : Nat → Build Layer σ Unit}
    (hx : ∀ done, c.Due done v → Triple (fun b => c.Tidy done (headers b) b) x fun k => c.Making done k v.name)
    (hf : ∀ done k, Stays (c.Ongoing done k v.name) (f k)) : c.Makes v (x >>= f) :=
  fun done hv => (hx done hv).bind fun k => (ongoing_iff.mp (hf done k)).post fun _ _ h => h.turned

theorem makes_layer {x : Nat → Build Layer σ Unit} {f : Nat → Build Layer σ Unit}
    (hx : ∀ done k, Triple (c.Blank done k) (x k) fun _ => c.Making done k v.name)
    (hf : ∀ done k, c.Due done v → Stays (c.Ongoing done k v.name) (f k)) :
    c.Makes v (do let k ← newLayer; x k; f k) :=
  fun done hv => newLayer_blank.bind fun k => (hx done k).bind fun _ =>
    (ongoing_iff.mp (hf done k hv)).post fun _ _ h => h.turned

end

/-! ## Whole graphs -/

section
variable {skip : Vertex Layer → Bool} {rule : Vertex Layer → Build Layer σ Unit}
  (hrule : ∀ v, c.Makes v (rule v)) (hskip : ∀ v, skip v = true → c.silent v.name v.item.op = true)
  (hscope : ∀ v : Vertex Layer, (scopes v.name).any leftOut.contains = true → c.silent v.name v.item.op = true)
  (hnamed : ∀ m v, c.graph.vertices.find? m = some v → v.name = m)
include hrule hskip hscope hnamed

theorem turn_spec {n : String} (hsources : c.distinct → ∀ p ∈ c.graph.sourcesOf n, p ∈ done) :
    Triple (fun b : Builder Layer σ => c.Tidy done (headers b) b)
      (do
        let v ← vertex n
        if v.covered || skip v || (scopes v.name).any leftOut.contains then pure () else rule v)
      fun _ b => c.Tidy (done ++ [n]) (headers b) b := by
  refine (vertex_found n).bind fun v b h _ b' hrun => ?_
  obtain ⟨hb, hv⟩ := h
  obtain ⟨u, hu, e⟩ := Option.map_eq_some_iff.mp ((hb.later n).symm.trans (Sight.seen _ hv))
  obtain rfl : v.name = n := (congrArg (·.name) e).symm.trans (hnamed n u hu)
  have hdue : c.Due done v := by
    refine ⟨⟨u, hu, congrArg (·.name) e, congrArg (·.item) e⟩, fun hd p hp => hsources hd p ?_⟩
    rw [sourcesOf_of_find? hu, show u.sources = v.sources from congrArg (·.sources) e]
    exact hp
  have hturned : c.Turned done v b' := by
    split at hrun
    · rename_i hout
      obtain ⟨-, rfl⟩ := pure_eq_ok.mp hrun
      refine ⟨hb, .inr ⟨v, hv, .inl ?_⟩⟩
      rw [Bool.or_eq_true, Bool.or_eq_true] at hout
      rcases hout with (hc | hs) | hs
      · exact .inl hc
      · exact .inr (hskip v hs)
      · exact .inr (hscope v hs)
    · exact hrule v done hdue b hb _ b' hrun
  obtain ⟨hb', hmade⟩ := hturned
  refine ⟨hb'.later, hb'.outputs, fun m hm q hq => ?_, hb'.reads, fun m hm => ?_⟩
  · rcases mem_append.mp hm with hm | hm
    · exact hb'.ready m hm q hq
    · rw [mem_singleton.mp hm] at hq
      rcases hmade with hmade | ⟨w, hw, ho | ⟨-, hf⟩⟩
      · exact (hb'.outputs _ q hq).elim (fun e => e ▸ .inl hmade) id
      · exact (hb'.outputs _ q hq).elim (fun e => e ▸ .inr (.inl ⟨w, hw, ho⟩)) id
      · rw [outputs, hw] at hq
        exact Option.some.inj hq ▸ hf
  · rcases mem_append.mp hm with hm | hm
    · exact hb'.made m hm
    · rw [mem_singleton.mp hm]
      exact hmade.imp id (.imp fun w h => ⟨h.1, h.2.imp id (·.1)⟩)

theorem convertKept_spec (hnodup : c.distinct → c.graph.Preceded c.graph.order) :
    Triple (fun b : Builder Layer σ => c.Tidy [] (headers b) b ∧ b.graph.order = c.graph.order)
      (convertKept skip rule) fun _ b => c.Tidy c.graph.order (headers b) b := by
  rintro b ⟨hb, horder⟩ _ b' hrun
  obtain ⟨_, _, ⟨⟩, hrun⟩ := step_cases hrun
  rw [horder] at hrun
  refine Triple.forM (I := fun done b => c.Tidy done (headers b) b) ?_ b hb _ b' hrun
  intro done n todo e
  exact turn_spec hrule hskip hscope hnamed fun hd => hnodup hd done n todo e

end

theorem Tidy.operand (h : c.Tidy done hs b) {hd : String × List String} (hh : hd ∈ hs) (hx : x ∈ hd.2) :
    x ∈ hs.map (·.1) ∨ (∃ u, b.graph.vertices.find? x = some u ∧ c.Omitted u) ∨
      (¬c.distinct ∨ ∃ u, b.graph.vertices.find? hd.1 = some u ∧ c.chained u.name u.item.op = true) ∧
        ∃ u, b.graph.vertices.find? x = some u ∧ (c.passes u.item.op = true ∨ x ∉ done) := by
  -- a vertex whose turn was has a layer, or gets none, or passes its input on
  have hany (hs' : (b.graph.vertices.find? x).isSome = true) : x ∈ hs.map (·.1) ∨
      (∃ u, b.graph.vertices.find? x = some u ∧ c.Omitted u) ∨
        ∃ u, b.graph.vertices.find? x = some u ∧ (c.passes u.item.op = true ∨ x ∉ done) := by
    obtain ⟨u, hu⟩ := Option.isSome_iff_exists.mp hs'
    by_cases hd : x ∈ done
    · rcases h.made x hd with hm | ⟨w, hw, ho | hp⟩
      · exact .inl hm
      · exact .inr (.inl ⟨w, hw, ho⟩)
      · exact .inr (.inr ⟨w, hw, .inl hp⟩)
    · exact .inr (.inr ⟨u, hu, .inr hd⟩)
  rcases h.reads hd hh x hx with (hf | ho | ⟨hn, hs'⟩) | ⟨hc, hs'⟩
  · exact .inl hf
  · exact .inr (.inl ho)
  · exact (hany hs').imp id (.imp id fun hp => ⟨.inl hn, hp⟩)
  · exact (hany hs').imp id (.imp id fun hp => ⟨.inr hc, hp⟩)

section
variable (c)

/-- What a layer of a finished conversion may read: the name of a layer, or of a vertex that gets no layer. A
chain that looks ahead, or any layer if two nodes have one name, may also read a vertex that passes its input on
or is not listed in the order. -/
def Operand (b : Builder Layer σ) (l : Layer) (x : String) : Prop :=
  (∃ l' ∈ b.layers.toList, l'.name = x) ∨
  (∃ u, b.graph.vertices.find? x = some u ∧ c.Omitted u) ∨
  (¬ c.distinct ∨ ∃ u, b.graph.vertices.find? l.name = some u ∧ c.chained u.name u.item.op = true) ∧
    ∃ u, b.graph.vertices.find? x = some u ∧ (c.passes u.item.op = true ∨ x ∉ c.graph.order)

end

theorem Tidy.layer (h : c.Tidy c.graph.order (headers b) b) {l : Layer} (hl : l ∈ b.layers.toList)
    (hx : x ∈ l.inputs) : c.Operand b l x := by
  refine (h.operand (mem_map_of_mem hl) hx).imp (fun hname => ?_) id
  simpa [headers, header] using hname

theorem tidy_start (h : ∀ m v, c.graph.vertices.find? m = some v → v.name = m ∧ v.outputName = m)
    (hb : b.graph = c.graph) : c.Tidy [] [] b where
  later m := by rw [Sight.vertices, hb]
  outputs m q hq := by
    rw [outputs, hb] at hq
    obtain ⟨u, hu, rfl⟩ := Option.map_eq_some_iff.mp hq
    exact .inl (h m u hu).2
  ready _ hm := by cases hm
  reads _ hh := by cases hh
  made _ hm := by cases hm

theorem convertKept_operand (nodes : List Layer) {skip : Vertex Layer → Bool} {rule : Vertex Layer → Build Layer σ Unit}
    (hrule : ∀ v, c.Makes v (rule v)) (hskip : ∀ v, skip v = true → c.silent v.name v.item.op = true)
    (hscope : ∀ v : Vertex Layer, (scopes v.name).any leftOut.contains = true → c.silent v.name v.item.op = true)
    (hgraph : c.graph = (graphOf nodes).1) (hnodup : c.distinct → c.graph.Preceded c.graph.order)
    (hb : b.graph = c.graph) (hnil : b.layers = #[]) (hrun : (convertKept skip rule).outcome b = (.ok (), b'))
    {l : Layer}
    (hl : l ∈ b'.layers.toList) (hx : x ∈ l.inputs) : c.Operand b' l x := by
  have hnamed (m v) (hv : c.graph.vertices.find? m = some v) := named_graphOf nodes (hgraph ▸ hv)
  refine (convertKept_spec hrule hskip hscope (fun m v hv => (hnamed m v hv).1) hnodup b ⟨?_, by rw [hb]⟩
    _ b' hrun).layer
    hl hx
  rw [headers, hnil]
  exact tidy_start hnamed hb

end Course

end NetBridge.Source.TensorFlow
