import NetBridge.Network.Draft
import NetBridge.Proofs.NetFusion
import Mathlib.Logic.Relation
import Mathlib.Data.Finset.Card

/-!
# Nets and drafts in order

A visit lists exactly the vertices that it reaches and that were not reached before, each once. Without cycles the
sources of a vertex are listed when its own turn comes.
-/

namespace NetBridge

open List

namespace DepthFirst

variable {α : Type} {sources : α → List α}

def SourcesFirst (sources : α → List α) (l : List α) : Prop :=
  ∀ pre a post, l = pre ++ a :: post → ∀ p ∈ sources a, p ∈ pre

variable {a : α} {l r as vs : List α} {s t u : Visit α}

theorem SourcesFirst.insert (h : SourcesFirst sources (l ++ r)) (ha : ∀ p ∈ sources a, p ∈ l) :
    SourcesFirst sources (l ++ a :: r) := by
  intro pre b post heq p hp
  rcases append_eq_append_iff.mp heq with ⟨mid, rfl, hmid⟩ | ⟨mid, rfl, hmid⟩
  · cases mid with
    | nil =>
      obtain ⟨rfl, -⟩ := cons.inj hmid
      simpa using ha p hp
    | cons c mid =>
      obtain ⟨rfl, rfl⟩ := cons.inj hmid
      have hmem := h (l ++ mid) b post (by simp) p hp
      simp only [mem_append] at hmem ⊢
      tauto
  · cases mid with
    | nil =>
      obtain ⟨rfl, -⟩ := cons.inj hmid
      simpa using ha p hp
    | cons c mid =>
      obtain ⟨rfl, rfl⟩ := cons.inj hmid
      exact h pre b (mid ++ r) (by simp) p hp

def Acyclic (sources : α → List α) (vs : List α) : Prop :=
  ∀ a ∈ vs, ¬Relation.TransGen (fun b p => p ∈ sources b) a a

theorem irrefl_of_rank {r : α → α → Prop} {f : α → Nat} (h : ∀ a p, r a p → f p < f a) (a : α) :
    ¬Relation.TransGen r a a := by
  have hless {a b : α} (hb : Relation.TransGen r a b) : f b < f a := by
    induction hb with
    | single hp => exact h _ _ hp
    | tail _ hp ih => exact (h _ _ hp).trans ih
  exact fun hloop => Nat.lt_irrefl _ (hless hloop)

/-- Every vertex that is reached but not yet listed leads to the given one. -/
def LeadsTo (sources : α → List α) (s : Visit α) (a : α) : Prop :=
  ∀ g ∈ s.reached, g ∈ s.listed ∨ Relation.TransGen (fun b p => p ∈ sources b) g a

/-- From the first state to the second, exactly the given vertices are reached and listed. -/
structure Lists (s t : Visit α) (out : List α) : Prop where
  listed : t.listed = s.listed ++ out
  reached : ∀ b, b ∈ t.reached ↔ b ∈ s.reached ∨ b ∈ out
  nodup : out.Nodup
  fresh : ∀ b ∈ out, b ∉ s.reached

theorem Lists.trans (h : Lists s t l) (h' : Lists t u r) : Lists s u (l ++ r) where
  listed := by rw [h'.listed, h.listed, append_assoc]
  reached b := by rw [h'.reached, h.reached, mem_append, or_assoc]
  nodup := by
    refine h.nodup.append h'.nodup fun b hl hr => h'.fresh b hr ?_
    exact (h.reached b).mpr (.inr hl)
  fresh b hb := by
    rcases mem_append.mp hb with hb | hb
    · exact h.fresh b hb
    · exact fun hs => h'.fresh b hb ((h.reached b).mpr (.inl hs))

theorem LeadsTo.of_lists (h : LeadsTo sources s a) (hl : Lists s t l) : LeadsTo sources t a := by
  intro g hg
  rw [hl.listed, mem_append]
  rcases (hl.reached g).mp hg with hg | hg
  · exact (h g hg).imp_left .inl
  · exact .inl (.inr hg)

/-- What the visits of some vertices make of a state. -/
structure Visits (sources : α → List α) (vs as : List α) (s t : Visit α) : Prop where
  lists : ∃ out, Lists s t out ∧ ∀ b ∈ out, b ∈ vs
  reached : ∀ a ∈ as, a ∈ t.reached
  first : Acyclic sources vs → SourcesFirst sources s.listed → (∀ a ∈ as, LeadsTo sources s a) →
    SourcesFirst sources t.listed

theorem Visits.refl (h : ∀ a ∈ as, a ∈ s.reached) : Visits sources vs as s s :=
  ⟨⟨[], ⟨by simp, by simp, nodup_nil, by simp⟩, by simp⟩, h, fun _ hfirst _ => hfirst⟩

theorem Visits.cons (h : Visits sources vs [a] s t)
    (h' : Visits sources vs as t u) : Visits sources vs (a :: as) s u := by
  obtain ⟨out, hout, hin⟩ := h.lists
  obtain ⟨out', hout', hin'⟩ := h'.lists
  refine ⟨⟨out ++ out', hout.trans hout', fun b hb => (mem_append.mp hb).elim (hin b) (hin' b)⟩, fun b hb => ?_,
    fun hacyclic hfirst hleads => ?_⟩
  · rcases mem_cons.mp hb with rfl | hb
    · exact (hout'.reached b).mpr (.inl (h.reached b (by simp)))
    · exact h'.reached b hb
  · refine h'.first hacyclic (h.first hacyclic hfirst fun b hb => ?_) fun b hb =>
      (hleads b (.tail _ hb)).of_lists hout
    rw [mem_singleton.mp hb]
    exact hleads a (.head _)

/-- A vertex is listed behind its sources: an unlisted one would lead to it and close a cycle. -/
theorem Visits.close (ha : a ∈ vs) (hnew : a ∉ s.reached)
    (h : Visits sources vs (sources a) { s with reached := a :: s.reached } t) :
    Visits sources vs [a] s { t with listed := t.listed ++ [a] } := by
  obtain ⟨out, hout, hin⟩ := h.lists
  have hreached (b : α) : b ∈ t.reached ↔ b ∈ s.reached ∨ b ∈ out ++ [a] := by
    rw [hout.reached, mem_cons, mem_append, mem_singleton]
    tauto
  refine ⟨⟨out ++ [a], ⟨by rw [hout.listed, append_assoc], hreached, ?_, ?_⟩, ?_⟩, ?_,
    fun hacyclic hfirst hleads => ?_⟩
  · exact nodup_append_comm.mp (nodup_cons.mpr ⟨fun hmem => hout.fresh a hmem (by simp), hout.nodup⟩)
  · intro b hb hs
    rcases mem_append.mp hb with hb | hb
    · exact hout.fresh b hb (.tail _ hs)
    · exact hnew (mem_singleton.mp hb ▸ hs)
  · simpa [or_imp, forall_and, ha] using hin
  · simpa using (hreached a).mpr (by simp)
  have hopen : ∀ g ∈ s.reached, g ∈ s.listed ∨ Relation.TransGen (fun b p => p ∈ sources b) g a :=
    hleads a (by simp)
  refine SourcesFirst.insert ?_ fun p hp => ?_
  · rw [append_nil]
    refine h.first hacyclic hfirst fun p hp g hg => ?_
    rcases mem_cons.mp hg with rfl | hg
    · exact .inr (.single hp)
    · exact (hopen g hg).imp_right fun hga => hga.tail hp
  · have hloop : ¬Relation.TransGen (fun b p => p ∈ sources b) p a := fun hpa => hacyclic a ha (.head hp hpa)
    rw [hout.listed, mem_append]
    rcases (hout.reached p).mp (h.reached p hp) with hmem | hmem
    · rcases mem_cons.mp hmem with rfl | hmem
      · exact absurd (.single hp) (hacyclic p ha)
      · exact .inl ((hopen p hmem).resolve_right hloop)
    · exact .inr hmem

section
variable [DecidableEq α] {inner : Finset α} {vs : List α}

variable {fuel k : Nat} {s : Visit α}

theorem visit_reached {a : α} (h : a ∈ s.reached) : visit sources fuel s a = s := by
  cases fuel with
  | zero => rfl
  | succ fuel => simp [visit, h]

theorem foldl_visit_reached {as : List α} (h : ∀ a ∈ as, a ∈ s.reached) : as.foldl (visit sources fuel) s = s := by
  induction as with
  | nil => rfl
  | cons a as ih =>
    rw [foldl_cons, visit_reached (h a (.head _))]
    exact ih fun b hb => h b (.tail _ hb)

theorem order_of_sourcesFirst {vs : List α} (size : Nat) (hnodup : vs.Nodup) (hfirst : SourcesFirst sources vs) :
    order sources size vs = vs := by
  refine congrArg Visit.listed (Run.split_induction (C := fun done todo =>
    todo.foldl (visit sources (size + 1)) ⟨done.reverse, done⟩ = ⟨vs.reverse, vs⟩) rfl fun done a todo hvs ih => ?_)
  have hnew : a ∉ done := Run.not_mem_done hnodup hvs
  have hvisit : visit sources (size + 1) ⟨done.reverse, done⟩ a = ⟨(done ++ [a]).reverse, done ++ [a]⟩ := by
    rw [visit, if_neg (by simpa using hnew)]
    rw [foldl_visit_reached]
    · simp
    · intro p hp
      exact .tail _ (mem_reverse.mpr (hfirst done a todo hvs p hp))
  rw [foldl_cons, hvisit]
  exact ih

/-- How many of the vertices that have sources are still to be reached. -/
def Visit.left (inner : Finset α) (s : Visit α) : Nat := (inner \ s.reached.toFinset).card

theorem Lists.left_le {t : Visit α} {out : List α} (h : Lists s t out) : t.left inner ≤ s.left inner := by
  refine Finset.card_le_card (Finset.sdiff_subset_sdiff subset_rfl fun b hb => ?_)
  rw [mem_toFinset] at hb ⊢
  exact (h.reached b).mpr (.inl hb)

theorem foldl_visits {l : List α} (hvisit : ∀ s, ∀ a ∈ l, s.left inner < k →
      visit sources (k + 1) s a = visit sources k s a ∧ Visits sources vs [a] s (visit sources k s a))
 (hfuel : l ≠ [] → s.left inner < k) : l.foldl (visit sources (k + 1)) s = l.foldl (visit sources k) s ∧
      Visits sources vs l s (l.foldl (visit sources k) s) := by
  induction l generalizing s with
  | nil => exact ⟨rfl, .refl (by simp)⟩
  | cons a l ih =>
    have hleft := hfuel (cons_ne_nil _ _)
    obtain ⟨hsame, ha⟩ := hvisit s a (.head _) hleft
    obtain ⟨out, hout, -⟩ := ha.lists
    obtain ⟨hrest, hl⟩ := ih (fun s b hb => hvisit s b (.tail _ hb))
      fun _ => hout.left_le.trans_lt hleft
    rw [foldl_cons, hsame]
    exact ⟨hrest, ha.cons hl⟩

variable {size : Nat} (hinner : ∀ a, sources a ≠ [] → a ∈ inner) (hsize : inner.card ≤ size)
  (hclosed : ∀ a ∈ vs, ∀ p ∈ sources a, p ∈ vs)

include hinner hclosed

theorem visit_visits : ∀ s, ∀ a ∈ vs, s.left inner < k →
    visit sources (k + 1) s a = visit sources k s a ∧ Visits sources vs [a] s (visit sources k s a) := by
  induction k with
  | zero => exact fun s a _ h => absurd h (Nat.not_lt_zero _)
  | succ k ih =>
    intro s a ha hfuel
    by_cases hs : a ∈ s.reached
    · rw [visit_reached hs, visit_reached hs]
      exact ⟨rfl, .refl (by simpa using hs)⟩
    · obtain ⟨hsame, hsources⟩ := foldl_visits (s := { s with reached := a :: s.reached })
        (fun s p hp => ih s p (hclosed a ha p hp)) fun hne => by
          have hmem : a ∈ inner \ s.reached.toFinset := by simp [hinner a hne, hs]
          rw [Visit.left, toFinset_cons, Finset.sdiff_insert]
          exact (Finset.card_erase_lt_of_mem hmem).trans_le (Nat.lt_succ_iff.mp hfuel)
      rw [visit, visit, if_neg hs, if_neg hs, hsame]
      exact ⟨rfl, hsources.close ha hs⟩

include hsize

theorem order_steady : (∀ n, size ≤ n → order sources n vs = order sources size vs) ∧
    Visits sources vs vs {} (vs.foldl (visit sources (size + 1)) {}) := by
  have hrun (n : Nat) (hn : size ≤ n) := foldl_visits (s := {}) (visit_visits hinner hclosed (k := n + 1))
    fun _ => by simpa [Visit.left] using Nat.lt_succ_of_le (hsize.trans hn)
  refine ⟨fun n hn => ?_, (hrun size le_rfl).2⟩
  induction n, hn using Nat.le_induction with
  | base => rfl
  | succ n hn ih => rw [← ih, order, order, (hrun n hn).1]

structure Arranges (sources : α → List α) (vs out : List α) : Prop where
  nodup : out.Nodup
  mem : ∀ a, a ∈ out ↔ a ∈ vs
  first : Acyclic sources vs → SourcesFirst sources out
  stable : vs.Nodup → SourcesFirst sources vs → out = vs

theorem order_arranges : (∀ n, size ≤ n → order sources n vs = order sources size vs) ∧
    Arranges sources vs (order sources size vs) := by
  obtain ⟨hsteady, ⟨out, hout, hin⟩, hall, hfirst⟩ := order_steady hinner hsize hclosed
  have hlisted : order sources size vs = out := hout.listed
  refine ⟨hsteady, hlisted ▸ hout.nodup, fun a => ⟨fun ha => hin a (hlisted ▸ ha), fun ha => ?_⟩, fun hacyclic => ?_,
    order_of_sourcesFirst size⟩
  · rw [hlisted]
    simpa using (hout.reached a).mp (hall a ha)
  · exact hfirst hacyclic (by simp [SourcesFirst]) fun a _ g hg => absurd hg (by simp)

end

end DepthFirst

def Draft.sourcesOf (d : Draft) (name : String) : List String := (d.layers.find? name).elim [] d.sources

theorem Draft.mem_keys_of_sourcesOf {d : Draft} {name p : String} (h : p ∈ d.sourcesOf name) : p ∈ d.layers.keys := by
  unfold sourcesOf at h
  cases hl : d.layers.find? name with
  | none => simp [hl] at h
  | some l =>
    rw [hl] at h
    exact (Table.contains_iff _ _).mp (mem_filter.mp h).2

theorem Draft.arranges_sorted (d : Draft) : (∀ n, d.layers.size ≤ n →
    DepthFirst.order d.sourcesOf n d.layers.keys = d.sorted) ∧
    DepthFirst.Arranges d.sourcesOf d.layers.keys d.sorted := by
  have hinner (name : String) (h : d.sourcesOf name ≠ []) : name ∈ d.layers.keys.toFinset := by
    rw [mem_toFinset, ← Table.contains_iff, Table.contains]
    cases hl : d.layers.find? name with
    | none => exact absurd (by rw [sourcesOf, hl]; rfl) h
    | some l => rfl
  have hsize : d.layers.keys.toFinset.card ≤ d.layers.size :=
    (toFinset_card_le _).trans_eq (length_map _)
  have hclosed : ∀ a ∈ d.layers.keys, ∀ p ∈ d.sourcesOf a, p ∈ d.layers.keys := fun _ _ _ => mem_keys_of_sourcesOf
  exact DepthFirst.order_arranges hinner hsize hclosed

namespace Prototxt

open Run DepthFirst

namespace Net

def SourcesFirst (g : Net) : Prop :=
  ∀ pre i post, g.members = pre ++ i :: post → ∀ p ∈ g.sources i, p ∈ pre

variable {g : Net}

theorem sorted_of_sourcesFirst (hnodup : g.members.Nodup) (hfirst : g.SourcesFirst) : g.sorted = g.members :=
  DepthFirst.order_of_sourcesFirst _ hnodup hfirst

def Sized (g : Net) (i : Nat) : Prop :=
  ∃ dims, (g.node i).sizes = some { dims := dims } ∧ dims.length = 4

/-- The second net differs from the first in the sizes of its nodes only. -/
structure Resized (g h : Net) : Prop where
  members : h.members = g.members
  size : h.pool.size = g.pool.size
  nodes : ∀ k, h.node k = { g.node k with sizes := (h.node k).sizes }

theorem Resized.sources {h : Net} (hr : g.Resized h) (i : Nat) : h.sources i = g.sources i := by
  rw [Net.sources, hr.nodes]
  rfl

def Sizable (g : Net) (i : Nat) : Prop :=
  ∀ h, g.Resized h → (h.node i).sizes = (g.node i).sizes → (∀ p ∈ g.sources i, h.Sized p) →
    ∃ dims, outputSizes h i = .ok (some dims) ∧ dims.length = 4

end Net

variable {i : Nat} {g : Net}

theorem setSizes_outcome {s : Session} {dims : List Int} (h : outputSizes s.net i = .ok (some dims))
    (hdims : dims.length = 4) : (setSizes i).outcome s =
      (.ok (), { s with net := s.net.update i fun n => { n with sizes := some { dims := dims } } }) := by
  refine bind_ok rfl (lift_bind_ok h (bind_ok rfl (lift_bind_eq_ok.mpr ⟨{ dims := dims }, ?_, rfl⟩)))
  rw [Sizes.full, if_pos hdims]

theorem setAllSizes_succeeds (log : List String) (hin : ∀ i ∈ g.members, i < g.pool.size)
    (hnodup : g.members.Nodup) (hfirst : g.SourcesFirst) (hsizable : ∀ i ∈ g.members, g.Sizable i) :
    ∃ s', (setAllSizes none).outcome ⟨g, log⟩ = (.ok (), s') ∧ g.Resized s'.net := by
  have hloop : Succeeds (fun s : Session => g.Resized s.net ∧ (∀ i ∈ [], s.net.Sized i) ∧
        ∀ i ∈ g.members, i ∉ [] → (s.net.node i).sizes = (g.node i).sizes)
      (g.members.forM setSizes) fun _ s => g.Resized s.net ∧ (∀ i ∈ g.members, s.net.Sized i) ∧
        ∀ i ∈ g.members, i ∉ g.members → (s.net.node i).sizes = (g.node i).sizes := by
    refine .forM (I := fun done (s : Session) => g.Resized s.net ∧ (∀ i ∈ done, s.net.Sized i) ∧
      ∀ i ∈ g.members, i ∉ done → (s.net.node i).sizes = (g.node i).sizes) ?_
    rintro done i todo hl s ⟨hr, hdone, hrest⟩
    have hi : i ∈ g.members := by rw [hl]; simp
    have hnew : i ∉ done := Run.not_mem_done hnodup hl
    obtain ⟨dims, hdims, hlength⟩ := hsizable i hi s.net hr (hrest i hi hnew) fun p hp =>
      hdone p (hfirst done i todo hl p hp)
    have hiin : i < s.net.pool.size := hr.size ▸ hin i hi
    refine ⟨(), _, setSizes_outcome hdims hlength, ⟨hr.members, by simpa using hr.size, fun k => ?_⟩, fun k hk => ?_,
      fun k hk hknew => ?_⟩
    · rw [Net.node_update]
      split
      · rw [hr.nodes k]
      · exact hr.nodes k
    · by_cases hki : k = i
      · subst hki
        exact ⟨dims, by rw [Net.node_update, if_pos ⟨rfl, hiin⟩], hlength⟩
      · have hkd : k ∈ done := by simpa [hki] using hk
        rw [Net.Sized, Net.node_update, if_neg fun h => hki h.1]
        exact hdone k hkd
    · have hki : k ≠ i := fun e => hknew (by simp [e])
      rw [Net.node_update, if_neg fun h => hki h.1]
      exact hrest k hk fun h => hknew (mem_append_left _ h)
  have hstart : g.Resized g := ⟨rfl, rfl, fun _ => rfl⟩
  obtain ⟨_, s', hrun, hr, -⟩ := hloop ⟨g, log⟩ ⟨hstart, nofun, fun _ _ _ => rfl⟩
  refine ⟨s', bind_ok rfl ?_, hr⟩
  rw [Net.sorted_of_sourcesFirst hnodup hfirst]
  exact hrun

theorem Net.lt_size_of_sources (h : g.sources i ≠ []) : i < g.pool.size := by
  by_contra hi
  exact h (by rw [sources, node, Array.getD, dif_neg hi]; rfl)

theorem setSizes_sized (done : List Nat) (i : Nat) : Triple (fun s => ∀ p ∈ done, s.net.Sized p) (setSizes i)
    fun _ s => ∀ p ∈ done ++ [i], s.net.Sized p := by
  intro s hs _ s' h
  obtain ⟨_, _, ⟨⟩, h⟩ := step_cases h
  obtain ⟨dims, hdims, h⟩ := lift_cases h
  obtain ⟨dims, -, h⟩ := lift_cases h
  obtain ⟨sizes, hfull, ⟨⟩⟩ := lift_cases h
  have hi : i < s.net.pool.size := by
    by_contra hi
    rw [outputSizes, Net.node, Array.getD, dif_neg hi] at hdims
    cases hdims
  rw [Sizes.full] at hfull
  split at hfull
  case isFalse => cases hfull
  case isTrue hlength =>
    cases hfull
    intro p hp
    rw [Net.Sized, Net.node_update]
    by_cases hpi : p = i
    · exact ⟨dims, by rw [if_pos ⟨hpi, hi⟩], hlength⟩
    · rw [if_neg fun h => hpi h.1]
      exact hs p (by simpa [hpi] using hp)

theorem setAllSizes_split {done todo : List Nat} (h : g.sorted = done ++ i :: todo)
    (log : List String) : (setAllSizes none).outcome ⟨g, log⟩ =
      (do done.forM setSizes; setSizes i; todo.forM setSizes).outcome ⟨g, log⟩ := by
  have hloop : (setAllSizes none).outcome ⟨g, log⟩ = (g.sorted.forM setSizes).outcome ⟨g, log⟩ := rfl
  have hsplit : (done ++ i :: todo).forM setSizes = (do done.forM setSizes; setSizes i; todo.forM setSizes) :=
    forM_append
  rw [hloop, h, hsplit]

/-- Nets and drafts are sorted depth first: no node is lost or listed twice, and without cycles every node comes behind
what it reads, so that the sizes of its sources are known when its own are worked out. -/
theorem sorted_arranges (g : Net) (hclosed : ∀ i ∈ g.members, ∀ p ∈ g.sources i, p ∈ g.members) (d : Draft) :
    ((∀ n, g.pool.size ≤ n → order g.sources n g.members = g.sorted) ∧ Arranges g.sources g.members g.sorted ∧
      (Acyclic g.sources g.members → ∀ log done i todo, g.sorted = done ++ i :: todo →
        (setAllSizes none).outcome ⟨g, log⟩ =
          (do done.forM setSizes; setSizes i; todo.forM setSizes : NetRun Unit).outcome ⟨g, log⟩ ∧
        ∀ s, (done.forM setSizes).outcome ⟨g, log⟩ = (.ok (), s) → ∀ p ∈ g.sources i, s.net.Sized p)) ∧
    (∀ n, d.layers.size ≤ n → order d.sourcesOf n d.layers.keys = d.sorted) ∧
      Arranges d.sourcesOf d.layers.keys d.sorted := by
  have hinner (i : Nat) (h : g.sources i ≠ []) : i ∈ Finset.range g.pool.size :=
    Finset.mem_range.mpr (Net.lt_size_of_sources h)
  have hsize : (Finset.range g.pool.size).card ≤ g.pool.size := (Finset.card_range _).le
  obtain ⟨hsteady, harranges⟩ := order_arranges hinner hsize hclosed
  refine ⟨⟨hsteady, harranges, fun hacyclic log done i todo hsplit =>
    ⟨setAllSizes_split hsplit log, fun s hrun p hp => ?_⟩⟩, d.arranges_sorted⟩
  have hsized := Triple.forM (l := done) fun done i _ _ =>
    setSizes_sized done i
  exact hsized _ (by simp) _ _ hrun p (harranges.first hacyclic done i todo hsplit p hp)

/-- A rectifier that is listed before the data it reads. -/
def backward : Net :=
  { pool := #[{ name := "r", kind := some "ReLU", parents := [(1, 0)] }, { name := "x", kind := some "Data" }]
    members := [0, 1] }

theorem sorted_arranges_backward : backward.sorted = [1, 0] ∧ backward.sorted.Nodup ∧
    (∀ i, i ∈ backward.sorted ↔ i ∈ [0, 1]) ∧ SourcesFirst backward.sources backward.sorted := by
  obtain ⟨⟨-, harranges, -⟩, -⟩ := sorted_arranges backward (by decide) {}
  refine ⟨by decide, harranges.nodup, harranges.mem, harranges.first fun i _ =>
    irrefl_of_rank (f := (2 - ·)) (fun i p hp => ?_) i⟩
  have hi : i < 2 := Net.lt_size_of_sources (ne_nil_of_mem hp)
  obtain rfl | rfl : i = 0 ∨ i = 1 := by omega
  · obtain rfl : p = 1 := mem_singleton.mp hp
    decide
  · cases hp

end Prototxt

end NetBridge
