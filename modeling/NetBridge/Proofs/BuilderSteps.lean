import NetBridge.Proofs.GraphOrder
import NetBridge.Proofs.RunSteps
import NetBridge.Source.Builder

/-!
# Steps of a conversion

Of the layers built so far only their names and what they read matter, their `headers`. Most steps leave these and the
graph as they are (`Quiet`). `Holds` says that every layer reads earlier ones, `Drafts` that this is so but for the
last.
-/

namespace NetBridge

open Graph List

namespace Source

open Run

variable {α σ β γ : Type}

/-! ## Names and inputs of the layers -/

def header (l : Layer) : String × List String := (l.name, l.inputs)

def headers (b : Builder α σ) : List (String × List String) := b.layers.toList.map header

def ReadsEarlier (hs : List (String × List String)) : Prop :=
  ∀ pre h post, hs = pre ++ h :: post → ∀ x ∈ h.2, x ∈ pre.map (·.1)

theorem ReadsEarlier.concat {hs : List (String × List String)} {h : String × List String}
    (hr : ReadsEarlier hs) (hx : ∀ x ∈ h.2, x ∈ hs.map (·.1)) : ReadsEarlier (hs ++ [h]) := by
  intro pre h' post e
  rcases split_concat e with ⟨rfl, rfl⟩ | ⟨post', e⟩
  · exact hx
  · exact hr pre h' post' e

variable {ls : List Layer} {m : String}

theorem ReadsEarlier.layer (hr : ReadsEarlier (ls.map header)) {pre post : List Layer}
    {l : Layer} (e : ls = pre ++ l :: post) {x : String} (hx : x ∈ l.inputs) : ∃ k ∈ pre, k.name = x := by
  have hm := hr (pre.map header) (header l) (post.map header) (by rw [e]; simp) x hx
  simpa [header] using hm

theorem map_modify {f : Layer → β} {h : Layer → Layer} (k : Nat)
    (hf : f (h (ls.getD k {})) = f (ls.getD k {})) : (ls.modify k h).map f = ls.map f := by
  induction ls generalizing k with
  | nil => simp
  | cons l ls ih =>
    cases k with
    | zero => simpa using hf
    | succ k => simpa using ih k (by simpa using hf)

theorem modify_last (f : Layer → Layer) (ls : List Layer) (l : Layer) :
    (ls ++ [l]).modify ls.length f = ls ++ [f l] := by
  induction ls with
  | nil => rfl
  | cons k ls ih => simp [ih]

/-! ## Steps made of others -/

def layerAt (b : Builder α σ) (k : Nat) : Layer := b.layers.getD k {}

variable {b b' : Builder α σ} {P : Builder α σ → Prop} {g : Graph α} {f : Layer → Layer} {vs : List (String × Value)}
  {v : Vertex α}

theorem vertex_bind_eq_ok {f : Vertex α → Build α σ β} {a : β} (h : (vertex m >>= f).outcome b = (.ok a, b')) :
    ∃ v, b.graph.vertices.find? m = some v ∧ (f v).outcome b = (.ok a, b') := by
  obtain ⟨v, _, hv, h⟩ := step_cases h
  obtain ⟨_, _, ⟨⟩, hv⟩ := step_cases hv
  obtain ⟨hfound, rfl⟩ := lift_eq_ok.mp hv
  exact ⟨v, vertex_eq_ok.mp hfound, h⟩

theorem follow_eq_ok {d : Graph.Direction} {path : List Int} {mark : Bool}
    {o : Option (Vertex α)} (h : (follow d m path mark).outcome b = (.ok o, b')) :
    (b.graph.follow d m path mark).1 = .ok o ∧ { b with graph := (b.graph.follow d m path mark).2 } = b' := by
  obtain ⟨_, _, ⟨⟩, h⟩ := step_cases h
  obtain ⟨_, _, ⟨⟩, h⟩ := step_cases h
  exact lift_eq_ok.mp h

theorem parent_cases {w : Vertex α}
    (h : (parent m [0] : Build α σ (Vertex α)).outcome b = (.ok w, b')) : b' = b ∧ ∃ v p,
      b.graph.vertices.find? m = some v ∧ v.sources.head? = some p ∧ b.graph.vertices.find? p = some w := by
  obtain ⟨r, _, hr, h⟩ := step_cases h
  obtain ⟨hw, rfl⟩ := lift_eq_ok.mp h
  obtain ⟨hfollow, rfl⟩ := follow_eq_ok hr
  obtain rfl := orFault_eq_ok.mp hw
  exact ⟨by rw [follow_unmarked], parent_eq_ok hfollow⟩

theorem vertex_found (m : String) :
    Triple P (vertex m : Build α σ (Vertex α)) fun u b => P b ∧ b.graph.vertices.find? m = some u := by
  intro b hb u b' h
  obtain ⟨_, _, ⟨⟩, h⟩ := step_cases h
  obtain ⟨hu, rfl⟩ := lift_eq_ok.mp h
  exact ⟨hb, vertex_eq_ok.mp hu⟩

section
variable {R : Builder α σ → Builder α σ → Prop} {k : Nat} {name : String}

instance : Stays R (own : Build α σ σ) := by unfold own; infer_instance

instance : Stays R (hasWeights : Build α σ Bool) := by unfold hasWeights; infer_instance

instance (m : String) : Stays R (vertex m : Build α σ (Vertex α)) := by unfold vertex; infer_instance

instance (k : Nat) : Stays R (layer k : Build α σ Layer) := by unfold layer; infer_instance

instance (m : String) : Stays R (outputNameOf m : Build α σ String) := by unfold outputNameOf; infer_instance

instance (v : Vertex α) (start : Nat) (stop : Option Nat) [∀ m, Stays R (addInput k m : Build α σ Unit)] :
    Stays R (readSources v k start stop : Build α σ Unit) := by unfold readSources; infer_instance

section
variable [∀ d m path mark, Stays R (follow d m path mark : Build α σ (Option (Vertex α)))] {m : String}
  {path : List Int} {mark : Bool}

instance : Stays R (parent? m path mark) := by unfold parent?; infer_instance

instance : Stays R (parent m path mark : Build α σ (Vertex α)) := by unfold parent; infer_instance

instance : Stays R (child? m path mark) := by unfold child?; infer_instance

instance : Stays R (child m path mark : Build α σ (Vertex α)) := by unfold child; infer_instance

end

instance [∀ m, Stays R (attr k m : Build α σ Attr)] : Stays R (outputDims k : Build α σ (List Int)) := by
  unfold outputDims; infer_instance

section
variable [∀ f, Stays R (changeAttr k name f : Build α σ Unit)]

instance (v : Value) : Stays R (setInt k name v : Build α σ Unit) := by unfold setInt; infer_instance

instance (v : Value) : Stays R (setFloat k name v : Build α σ Unit) := by unfold setFloat; infer_instance

instance (v : Value) : Stays R (setFlag k name v : Build α σ Unit) := by unfold setFlag; infer_instance

instance (i : Int) : Stays R (setType k name i : Build α σ Unit) := by unfold setType; infer_instance

instance (vs : List Value) : Stays R (addInts k name vs : Build α σ Unit) := by unfold addInts; infer_instance

instance (ns : List Int) : Stays R (putInts k name ns : Build α σ Unit) := by unfold putInts; infer_instance

instance (dims : List Int) : Stays R (addShape k name dims : Build α σ Unit) := by unfold addShape; infer_instance

instance (a : Attr) : Stays R (mergeAttr k name a : Build α σ Unit) := by unfold mergeAttr; infer_instance

instance (dims : List Int) : Stays R (mergeShape k name dims : Build α σ Unit) := by unfold mergeShape; infer_instance

end

/-! ## Steps that change a layer -/

class Edits {ω : outParam Type} (R : Builder α σ → Builder α σ → Prop) (k : Nat) (seen : outParam (Layer → ω)) :
    Prop where
  edit : ∀ b₀ b f, R b₀ b → seen (f (layerAt b k)) = seen (layerAt b k) →
    R b₀ { b with layers := b.layers.modify k f }
  touch : ∀ l name, seen (l.touch name) = seen l

class Unseen {ω : Type} (seen : Layer → ω) (name : String) : Prop where
  insert : ∀ (l : Layer) a, seen { l with attrs := l.attrs.insert name a } = seen l

variable {ω : Type} {seen : Layer → ω}

theorem Unseen.assignAll (rules : AttrRules) (hvs : ∀ p ∈ vs, Unseen seen p.1)
    (l : Layer) : seen (l.assignAll rules vs).2 = seen l := by
  induction vs generalizing l with
  | nil => rfl
  | cons p vs ih =>
    have hone : seen (l.assign rules p.1 p.2).2 = seen l := by
      unfold Layer.assign
      dsimp only
      split <;> exact (hvs p (.head _)).insert _ _
    unfold Layer.assignAll
    split
    · rename_i h
      rw [h] at hone
      exact (ih (fun q hq => hvs q (.tail _ hq)) _).trans hone
    · rename_i h
      rw [h] at hone
      exact hone

variable [hR : Edits R k seen]

theorem stays_edit (hf : ∀ l, seen (f l) = seen l) : Stays R (edit k f : Build α σ Unit) :=
  ⟨fun b₀ => .modify fun b hb => hR.edit b₀ b f hb (hf _)⟩

instance : Stays R (attr k name : Build α σ Attr) := by
  have : Stays R (Source.edit k (·.touch name)) := stays_edit (hR.touch · name)
  unfold attr
  infer_instance

instance [hn : Unseen seen name] (f : Attr → Except Fault Attr) : Stays R (changeAttr k name f : Build α σ Unit) := by
  have (new : Attr) : Stays R (Source.edit k fun l => { l with attrs := l.attrs.insert name new }) :=
    stays_edit (hn.insert · new)
  unfold changeAttr
  infer_instance

instance [hn : Unseen seen name] (v : Value) : Stays R (addSize k name v : Build α σ Unit) := by
  have (a : Attr) : Stays R (Source.edit k fun l => { l with attrs := l.attrs.insert name a }) :=
    stays_edit (hn.insert · a)
  unfold addSize
  infer_instance

omit hR in
theorem assign_eq_ok {b b' : Builder α σ} {u : Unit} (h : (assign k vs).outcome b = (.ok u, b')) :
    ∃ l, (layerAt b k).assignAll .general vs = (.ok (), l) ∧
      b' = { b with layers := b.layers.modify k fun _ => l } := by
  obtain ⟨_, _, ⟨⟩, h⟩ := step_cases h
  obtain ⟨_, _, ⟨⟩, h⟩ := step_cases h
  obtain ⟨hok, rfl⟩ := lift_eq_ok.mp h
  exact ⟨_, Prod.ext hok rfl, rfl⟩

theorem stays_assign (hvs : ∀ p ∈ vs, Unseen seen p.1) : Stays R (assign k vs : Build α σ Unit) := by
  refine ⟨fun b₀ b hb a b' h => ?_⟩
  obtain ⟨l, hl, rfl⟩ := assign_eq_ok h
  have hseen := Unseen.assignAll .general hvs (layerAt b k)
  exact hR.edit b₀ b _ hb (by rwa [hl] at hseen)

instance [hn : ∀ name, Unseen seen name] (vs : List (String × Value)) : Stays R (assign k vs : Build α σ Unit) :=
  stays_assign fun p _ => hn p.1

end

/-! ## Steps that leave the headers and the graph -/

def SameHeaders (b b' : Builder α σ) : Prop := b'.graph = b.graph ∧ headers b' = headers b

abbrev Quiet (x : Build α σ β) : Prop := Stays SameHeaders x

theorem headers_edit {k : Nat} (hf : header (f (layerAt b k)) = header (layerAt b k)) :
    headers { b with layers := b.layers.modify k f } = headers b := by
  rw [headers, Array.toList_modify]
  exact map_modify k (by simpa [layerAt] using hf)

instance (k : Nat) : Edits (SameHeaders (α := α) (σ := σ)) k header where
  edit _ _ _ h hf := ⟨h.1, (headers_edit hf).trans h.2⟩
  touch _ _ := rfl

instance (name : String) : Unseen header name := ⟨fun _ _ => rfl⟩

instance (name : String) : Unseen Layer.name name := ⟨fun _ _ => rfl⟩

instance (line : String) : Quiet (say line : Build α σ Unit) := ⟨fun _ => .modify fun _ h => h⟩

instance (f : σ → σ) : Quiet (modifyOwn f : Build α σ Unit) := ⟨fun _ => .modify fun _ h => h⟩

instance (layer name : String) (v : Value) : Quiet (setWeight layer name v : Build α σ Unit) :=
  ⟨fun _ => .modify fun _ h => h⟩

instance (k : Nat) (op : String) : Quiet (setOp k op : Build α σ Unit) := stays_edit fun _ => rfl

/-! ## Layers that read earlier ones -/

/-- Every layer reads earlier ones. The outputs of the vertices are called `out`, and there are layers
of the `known` names. -/
structure Holds (g : Graph α) (out : String → String) (known : List String) (b : Builder α σ) : Prop where
  graph : g.Renamed out b.graph
  reads : ReadsEarlier (headers b)
  known : ∀ x ∈ known, x ∈ (headers b).map (·.1)

/-- The same while the last layer, of the given number and name, is not finished. -/
structure Drafts (g : Graph α) (out : String → String) (known : List String) (k : Nat) (name : String)
    (b : Builder α σ) : Prop where
  graph : g.Renamed out b.graph
  draft : ∃ hs ins, headers b = hs ++ [(name, ins)] ∧ hs.length = k ∧ ReadsEarlier hs ∧
    (∀ x ∈ ins, x ∈ hs.map (·.1)) ∧ ∀ x ∈ known, x ∈ hs.map (·.1)

section
variable {g : Graph α} {out : String → String} {known : List String} {k : Nat} {name x : String}
  {b : Builder α σ}

theorem Holds.mono {known' : List String} (h : Holds g out known b) (hk : known' ⊆ known) :
    Holds g out known' b :=
  ⟨h.graph, h.reads, fun x hx => h.known x (hk hx)⟩

theorem Holds.forget {q : String} (h : Holds g out (q :: x :: known) b) : Holds g out (q :: known) b :=
  h.mono (cons_subset_cons q (subset_cons_self ..))

theorem Drafts.finish (h : Drafts g out known k name b) : Holds g out (name :: known) b := by
  obtain ⟨hs, ins, he, -, hr, hi, hk⟩ := h.draft
  refine ⟨h.graph, ?_, fun x hx => ?_⟩
  · rw [he]
    exact hr.concat hi
  · rw [he, map_append, mem_append]
    rcases mem_cons.mp hx with rfl | hx
    · exact .inr (by simp)
    · exact .inl (hk x hx)

theorem Quiet.holds {x : Build α σ β} [hx : Quiet x] : Keeps (Holds g out known) x := by
  intro b hb a b' h
  obtain ⟨hg, hh⟩ := hx.keeps b b ⟨rfl, rfl⟩ a b' h
  exact ⟨hg ▸ hb.graph, hh ▸ hb.reads, hh ▸ hb.known⟩

theorem Quiet.drafts {x : Build α σ β} [hx : Quiet x] : Keeps (Drafts g out known k name) x := by
  intro b hb a b' h
  obtain ⟨hg, hh⟩ := hx.keeps b b ⟨rfl, rfl⟩ a b' h
  exact ⟨hg ▸ hb.graph, hh ▸ hb.draft⟩

theorem quietly {x : Build α σ β} {f : β → Build α σ γ} {Q : γ → Builder α σ → Prop} [Quiet x]
    (hf : ∀ a, Triple (Drafts g out known k name) (f a) Q) : Triple (Drafts g out known k name) (x >>= f) Q :=
  Quiet.drafts.bind hf

theorem newLayer_spec : Triple (Holds g out known) (newLayer : Build α σ Nat)
    fun k b => Drafts g out known k "" b := by
  intro b hb k b' h
  cases h
  refine ⟨hb.graph, headers b, [], ?_, by simp [headers], hb.reads, nofun, hb.known⟩
  simp [headers, header]

theorem edit_last (hb : Drafts g out known k name b) :
    ∃ hs l, (b.layers.modify k f).toList.map header = hs ++ [header (f l)] ∧ hs.length = k ∧ ReadsEarlier hs ∧
      l.name = name ∧ (∀ x ∈ l.inputs, x ∈ hs.map (·.1)) ∧ ∀ x ∈ known, x ∈ hs.map (·.1) := by
  obtain ⟨hs, ins, he, hlen, hr, hi, hk⟩ := hb.draft
  obtain ⟨ls, ls', hl, rfl, hl'⟩ := map_eq_append_iff.mp he
  obtain ⟨l, rfl, hd⟩ := map_eq_singleton_iff.mp hl'
  obtain ⟨rfl, rfl⟩ := Prod.mk.inj hd
  rw [length_map] at hlen
  refine ⟨ls.map header, l, ?_, by simpa using hlen, hr, rfl, hi, hk⟩
  rw [Array.toList_modify, hl, ← hlen, modify_last]
  simp

theorem setName_spec (new : String) : Triple (Drafts g out known k name)
    (setName k new : Build α σ Unit) fun _ => Drafts g out known k new := by
  refine .modify fun b hb => ?_
  obtain ⟨hs, l, he, hlen, hr, -, hi, hk⟩ := edit_last hb
  exact ⟨hb.graph, hs, l.inputs, he, hlen, hr, hi, hk⟩

theorem addInput_spec (hx : x ∈ known) :
    Keeps (Drafts g out known k name) (addInput k x : Build α σ Unit) := by
  refine .modify fun b hb => ?_
  obtain ⟨hs, l, he, hlen, hr, hn, hi, hk⟩ :=
    edit_last hb
  refine ⟨hb.graph, hs, l.inputs ++ [x], by rw [← hn]; exact he, hlen, hr, fun y hy => ?_, hk⟩
  rcases mem_append.mp hy with hy | hy
  · exact hi y hy
  · rw [mem_singleton.mp hy]
    exact hk x hx

theorem outputNameOf_spec (hP : ∀ b, P b → g.Renamed out b.graph) (n : String) :
    Gets P (outputNameOf n) fun x => x = out n := by
  refine (vertex_found n).bind fun v => .pure fun b hb => ⟨hb.1, ?_⟩
  obtain ⟨u, _, rfl⟩ := (hP b hb.1).of_find? hb.2
  rfl

theorem rename_spec (n q : String) : Triple (Holds g out known) (rename n q : Build α σ Unit)
    fun _ => Holds g (renameAt out n q) known :=
  .modify fun _ hb => ⟨hb.graph.modify n q, hb.reads, hb.known⟩

theorem rename_draft (n q : String) : Triple (Drafts g out known k name) (rename n q : Build α σ Unit)
    fun _ => Drafts g (renameAt out n q) known k name :=
  .modify fun _ hb => ⟨hb.graph.modify n q, hb.draft⟩

theorem keeps_readSources {start : Nat} {stop : Option Nat}
    (h : ∀ p ∈ v.sources, Keeps P (do addInput k (← outputNameOf p))) : Keeps P (readSources v k start stop) :=
  keeps_forM fun _ _ => .bind_of
    (.lift fun _ hp _ hb => ⟨hb, mem_of_getElem? (orFault_eq_ok.mp hp)⟩) h

theorem readSources_spec (hv : ∀ p ∈ v.sources, out p ∈ known) (start : Nat)
    (stop : Option Nat) : Keeps (Drafts g out known k name) (readSources v k start stop : Build α σ Unit) := by
  refine keeps_readSources fun p hp => .bind_of (outputNameOf_spec (fun _ hb => hb.graph) p) fun x hx =>
    addInput_spec ?_
  rw [hx]
  exact hv p hp

theorem parent_spec (n : String) : Gets (Holds g out known) (parent n [0] : Build α σ (Vertex α))
    fun w => ∃ p ∈ g.sourcesOf n, w.outputName = out p := by
  intro b hb w b' h
  obtain ⟨rfl, v, p, hv, hp, hw⟩ := parent_cases h
  obtain ⟨u, _, rfl⟩ := hb.graph.of_find? hw
  refine ⟨hb, p, ?_, rfl⟩
  rw [← hb.graph.sourcesOf, sourcesOf_of_find? hv]
  exact mem_of_head? hp

end

/-! ## Whole graphs -/

/-- A vertex whose turn it is: its own output is called like it, and there are layers for the outputs of
its sources. -/
structure Ready (g : Graph α) (out : String → String) (known : List String) (v : Vertex α) : Prop where
  own : out v.name = v.name
  sources : ∀ p ∈ v.sources, p ≠ v.name ∧ out p ∈ known
  listed : v.sources = g.sourcesOf v.name

theorem Ready.finish {out : String → String} {known : List String}
    (hv : Ready g out known v) (hb : Holds g out (v.name :: known) b) :
    ∃ q, Holds g (renameAt out v.name q) (q :: known) b := by
  refine ⟨out v.name, ?_⟩
  rw [renameAt_same, hv.own]
  exact hb

def Converts (g : Graph α) (v : Vertex α) (x : Build α σ Unit) : Prop :=
  ∀ out known, Ready g out known v → Triple (Holds g out known) x
    fun _ b => ∃ q, Holds g (Graph.renameAt out v.name q) (q :: known) b

theorem Converts.after {x : Build α σ β} {f : β → Build α σ Unit} [Quiet x]
    (hf : ∀ a, Converts g v (f a)) : Converts g v (x >>= f) :=
  fun out known hv => Quiet.holds.bind fun a => hf a out known hv

theorem Converts.throw (e : Fault) : Converts g v (throw e : Build α σ Unit) :=
  fun _ _ _ => .throw

def Converted (g : Graph α) (done : List String) (b : Builder α σ) : Prop :=
  ∃ out known, Holds g out known b ∧ (∀ m ∈ done, out m ∈ known) ∧ ∀ m, m ∉ done → out m = m

section
variable {g : Graph α} {rule : Vertex α → Build α σ Unit} (hrule : ∀ v, Converts g v (rule v))
  (hnamed : ∀ m v, g.vertices.find? m = some v → v.name = m)
include hrule hnamed

theorem convert_step {done : List String} {n : String} (hn : n ∉ done)
    (hs : ∀ p ∈ g.sourcesOf n, p ∈ done) :
    Triple (Converted g done) (do rule (← vertex n)) fun _ => Converted g (done ++ [n]) := by
  rintro b ⟨out, known, hb, hdone, hfresh⟩ _ b' h
  obtain ⟨v, hv, h⟩ := vertex_bind_eq_ok h
  obtain ⟨u, hu, rfl⟩ := hb.graph.of_find? hv
  obtain rfl := hnamed n u hu
  have hsources : u.sources = g.sourcesOf u.name := (sourcesOf_of_find? hu).symm
  have hready : Ready g out known { u with outputName := out u.name } := by
    refine ⟨hfresh u.name hn, fun p hp => ?_, hsources⟩
    have hpd := hs p (hsources ▸ hp)
    exact ⟨fun e => hn (e ▸ hpd), hdone p hpd⟩
  obtain ⟨q, hq⟩ := hrule _ out known hready b hb _ b' h
  refine ⟨_, _, hq, ?_, fresh_renameAt hfresh u.name q⟩
  exact forall_renameAt (P := fun _ r => r ∈ q :: known) (fun m hm => .tail _ (hdone m hm)) (.head _)

theorem convertAll_spec (hnodup : g.order.Nodup) (hprec : g.Preceded g.order) :
    Triple (fun b => Converted g [] b ∧ b.graph.order = g.order) (convertAll rule)
      fun _ b => ReadsEarlier (headers b) := by
  have hloop : Triple (Converted g []) (g.order.forM fun n => do rule (← vertex n))
      fun _ b => Converted g g.order b := by
    refine .forM fun done n todo e => ?_
    have hn : n ∉ done := not_mem_done hnodup e
    exact convert_step hrule hnamed hn (hprec done n todo e)
  refine .bind (Q := fun c b => Converted g [] b ∧ c.graph.order = g.order) (.get fun b hb => hb) ?_
  rintro c b ⟨hb, hc⟩ _ b' h
  rw [hc] at h
  obtain ⟨out, known, hholds, _⟩ := hloop b hb _ b' h
  exact hholds.reads

end

theorem convertAll_readsEarlier {rule : Vertex α → Build α σ Unit} (hrule : ∀ v, Converts b.graph v (rule v))
    (hnamed : ∀ m v, b.graph.vertices.find? m = some v → v.name = m ∧ v.outputName = m)
    (hnodup : b.graph.order.Nodup) (hprec : b.graph.Preceded b.graph.order) (hnil : b.layers = #[])
    (hrun : (convertAll rule).outcome b = (.ok (), b')) : ReadsEarlier (headers b') := by
  refine convertAll_spec hrule (fun m v hv => (hnamed m v hv).1) hnodup hprec b ⟨?_, rfl⟩ () b' hrun
  have hren := renamed_id fun m v hv => (hnamed m v hv).2
  refine ⟨id, [], ⟨hren, fun pre h post e => ?_, nofun⟩, nofun, fun _ _ => rfl⟩
  rw [headers, hnil] at e
  simp at e

end Source

/-! ## Working on the newest layer

`draft b l` is a builder with the layer `l` on top of those of `b`; every step that fills in the newest layer leads from
one draft to another (`edit_draft`, `changeAttr_draft`), and that it succeeds is part of what is said. -/

namespace Table

variable {β : Type}

@[simp] theorem insert_insert (t : Table β) (k : String) (b c : β) : (t.insert k b).insert k c = t.insert k c := by
  have h : ∀ es : List (String × β), insertIn k c (insertIn k b es) = insertIn k c es := by
    intro es
    induction es with
    | nil => simp [insertIn]
    | cons e es ih =>
      by_cases hk : e.1 = k
      · simp [insertIn, hk]
      · simp [insertIn, hk, ih]
  simp [insert, h]

end Table

namespace Layer

def put (l : Layer) (name : String) (a : Attr) : Layer := { l with attrs := l.attrs.insert name a }

variable {l : Layer} {name : String} {a c : Attr}

@[simp] theorem attr_put : (l.put name a).attr name = a := by simp [put, attr]

@[simp] theorem put_put : (l.put name a).put name c = l.put name c := by simp [put]

@[simp] theorem put_touch : (l.touch name).put name a = l.put name a := by simp [put, touch]

@[simp] theorem attr_touch : (l.touch name).attr name = l.attr name := by simp [touch, attr]

end Layer

namespace Attr

variable {a : Attr}

@[simp] theorem extendInts_extendInts (ns ms : List Int) :
    (a.extendInts ns).extendInts ms = a.extendInts (ns ++ ms) := by
  simp [extendInts, items]

@[simp] theorem extendShapes_extendShapes (ss us : List (List Int)) :
    (a.extendShapes ss).extendShapes us = a.extendShapes (ss ++ us) := by
  simp [extendShapes, items]

end Attr

theorem Run.mapM_lift_eq_ok {σ α β : Type} {f : α → Except Fault β} {l : List α} {bs : List β} (s : σ)
    (h : l.mapM f = .ok bs) : (l.mapM fun a => (liftM (f a) : Run σ β)).outcome s = (.ok bs, s) := by
  rw [mapM_eq_ok_iff] at h
  induction h with
  | nil => rfl
  | cons hc _ ih => exact mapM_cons_eq_ok.mpr ⟨_, s, _, lift_ok hc, ih, rfl⟩

def Graph.outputName {α : Type} (g : Graph α) (n : String) : String := (g.vertices.find? n).elim n (·.outputName)

theorem mapM_int64Of {ns : List Int} (h : ∀ n ∈ ns, fitsInt64 n) : (ns.map Value.int).mapM int64Of = .ok ns := by
  rw [mapM_eq_ok_iff, forall₂_map_left_iff, forall₂_same]
  intro n hn
  simp [int64Of, int64, h n hn]

namespace Source

open Run

variable {α σ : Type} {b : Builder α σ} {l : Layer}

def draft (b : Builder α σ) (l : Layer) : Builder α σ := { b with layers := b.layers.push l }

theorem newLayer_draft : (newLayer : Build α σ Nat).outcome b = (.ok b.layers.size, draft b {}) := rfl

theorem layer_draft : (layer b.layers.size).outcome (draft b l) = (.ok l, draft b l) := by
  have h : (draft b l).layers.getD b.layers.size {} = l := by simp [draft]
  exact bind_ok rfl (pure_eq_ok.mpr ⟨h, rfl⟩)

theorem edit_draft (f : Layer → Layer) :
    (edit b.layers.size f).outcome (draft b l) = (.ok (), draft b (f l)) := by
  have h : (b.layers.push l).modify b.layers.size f = b.layers.push (f l) := by
    refine Array.ext (by simp) fun i hi hi' => ?_
    rw [Array.getElem_modify, Array.getElem_push, Array.getElem_push]
    have hlt : i ≤ b.layers.size := by simpa using Nat.le_of_lt_succ (by simpa using hi')
    by_cases he : b.layers.size = i
    · simp [he]
    · have : i < b.layers.size := by omega
      simp [he, this]
  show (Except.ok (), { b with layers := (b.layers.push l).modify b.layers.size f }) = _
  rw [h, draft]

theorem attr_draft (name : String) : (attr b.layers.size name).outcome (draft b l) =
    (.ok (l.attr name), draft b (l.touch name)) := by
  refine bind_ok (edit_draft _) (bind_ok layer_draft ?_)
  rw [Layer.attr_touch]
  rfl

variable {a : Attr} {name : String} {v : Vertex α}

theorem changeAttr_draft {f : Attr → Except Fault Attr} (h : f (l.attr name) = .ok a) :
    (changeAttr b.layers.size name f).outcome (draft b l) = (.ok (), draft b (l.put name a)) := by
  refine bind_ok (attr_draft name) (lift_bind_ok h ?_)
  rw [edit_draft, ← Layer.put_touch]
  rfl

theorem setInt_draft {n : Int} (name : String) (h : fitsInt64 n) :
    (setInt b.layers.size name (.int n)).outcome (draft b l) =
      (.ok (), draft b (l.put name (.int n))) :=
  changeAttr_draft (by simp [int64Of, int64, h, Except.map])

theorem setFlag_draft (name : String) (c : Bool) :
    (setFlag b.layers.size name (.bool c)).outcome (draft b l) =
      (.ok (), draft b (l.put name (.flag c))) :=
  changeAttr_draft (by cases c <;> rfl)

theorem addInts_draft {ns : List Int} (name : String) (h : ∀ n ∈ ns, fitsInt64 n) :
    (addInts b.layers.size name (ns.map .int)).outcome (draft b l) =
      (.ok (), draft b (l.put name ((l.attr name).extendInts ns))) :=
  changeAttr_draft (by rw [mapM_int64Of h]; rfl)

theorem assign_draft {v : Value} (h : (l.attr name).assign .general v = .ok a) :
    (assign b.layers.size [(name, v)]).outcome (draft b l) = (.ok (), draft b (l.put name a)) := by
  have hall : l.assignAll .general [(name, v)] = (.ok (), l.put name a) := by
    simp [Layer.assignAll, Layer.assign, h, Layer.put]
  refine bind_ok layer_draft ?_
  rw [hall]
  exact bind_ok (edit_draft _) rfl

theorem outputNameOf_draft {n : String} {u : Vertex α} (h : b.graph.vertices.find? n = some u) :
    (outputNameOf n : Build α σ String).outcome (draft b l) = (.ok u.outputName, draft b l) := by
  refine bind_ok (bind_ok rfl (lift_ok ?_)) rfl
  show Table.get b.graph.vertices n _ = .ok u
  rw [Table.get, h]

theorem readEach_draft {ps : List String} (hps : ∀ p ∈ ps, p ∈ b.graph.vertices.keys)
    {is : List Nat} (his : is.map (v.sources[·]?) = ps.map some) :
    (is.forM fun i => do addInput b.layers.size (← outputNameOf (← orFault Fault.position v.sources[i]?)) :
      Build α σ Unit).outcome (draft b l) =
      (.ok (), draft b { l with inputs := l.inputs ++ ps.map b.graph.outputName }) := by
  -- the layer grows with every place, so it is not fixed in the induction
  induction ps generalizing is l with
  | nil =>
    rw [map_nil, map_eq_nil_iff] at his
    subst his
    rw [map_nil, append_nil]
    rfl
  | cons p ps ih =>
    cases is with
    | nil => simp at his
    | cons i is =>
      obtain ⟨hi, his⟩ := cons.inj his
      have hi : v.sources[i]? = some p := hi
      obtain ⟨u, hu⟩ := Table.mem_keys_iff.mp (hps p (.head _))
      have hout : b.graph.outputName p = u.outputName := by simp [outputName, hu]
      refine bind_ok (lift_bind_eq_ok.mpr ⟨p, by rw [hi]; rfl,
        bind_ok (outputNameOf_draft hu) (edit_draft _)⟩) ?_
      rw [ih (fun q hq => hps q (.tail _ hq)) his, map_cons, hout, append_assoc]
      rfl

theorem readSources_draft (h : ∀ p ∈ v.sources, p ∈ b.graph.vertices.keys) :
    (readSources v b.layers.size).outcome (draft b l) =
      (.ok (), draft b { l with inputs := l.inputs ++ v.sources.map b.graph.outputName }) := by
  refine readEach_draft h (ext_getElem (by simp) fun i _ hi => ?_)
  have hlt : i < v.sources.length := by simpa using hi
  simp [hlt]

end Source

end NetBridge
