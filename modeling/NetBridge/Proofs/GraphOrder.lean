import Mathlib.Data.Fintype.Order
import Mathlib.Data.List.Perm.Subperm
import Mathlib.Logic.Relation
import NetBridge.Proofs.GraphEdges

/-!
# What the order of a graph lists

The order is worked out by serving vertices one after the other; `Sorting` is the state of that work. A graph whose
edges agree in both directions gets the vertices without a cycle behind them (`mem_orderOf_iff_cycleFree`).
-/

namespace NetBridge.Graph

open List

variable {α : Type}

def Feeds (g : Graph α) (a b : String) : Prop := a ∈ g.sourcesOf b

def CycleFree (g : Graph α) (n : String) : Prop :=
  ∀ a, Relation.ReflTransGen g.Feeds a n → ¬ Relation.TransGen g.Feeds a a

def Preceded (g : Graph α) (l : List String) : Prop :=
  ∀ pre n post, l = pre ++ n :: post → ∀ s ∈ g.sourcesOf n, s ∈ pre

/-- The graph knows every name once, and no vertex serves a target twice or one that does not expect
it. -/
structure Wired (g : Graph α) : Prop where
  keys_nodup : g.vertices.keys.Nodup
  targets_nodup : ∀ a, (g.targetsOf a).Nodup
  backed : ∀ a t, t ∈ g.targetsOf a → a ∈ g.sourcesOf t

/-- Both ends of an edge know it, and know it once. -/
structure Mirrored (g : Graph α) : Prop extends Wired g where
  sources_nodup : ∀ t, (g.sourcesOf t).Nodup
  mirrored : ∀ a t, a ∈ g.sourcesOf t → t ∈ g.targetsOf a

variable {g g' : Graph α} {done queue : List String} {p : Pending} {n t : String}

theorem Mirrored.congr (hm : g.Mirrored) (h : g.vertices = g'.vertices) : g'.Mirrored := by
  have hs : g.sourcesOf = g'.sourcesOf := by funext n; simp only [sourcesOf, h]
  have ht : g.targetsOf = g'.targetsOf := by funext n; simp only [targetsOf, h]
  obtain ⟨⟨h1, h2, h3⟩, h4, h5⟩ := hm
  exact ⟨⟨h ▸ h1, ht ▸ h2, hs ▸ ht ▸ h3⟩, hs ▸ h4, hs ▸ ht ▸ h5⟩

/-! ## Lists in which sources come first -/

theorem Preceded.nil (g : Graph α) : g.Preceded [] := by
  intro pre n post h
  simp at h

theorem split_concat {β : Type} {l pre post : List β} {x y : β} (e : l ++ [x] = pre ++ y :: post) :
    l = pre ∧ x = y ∨ ∃ post', l = pre ++ y :: post' := by
  rcases eq_nil_or_concat post with rfl | ⟨post', z, rfl⟩
  · obtain ⟨rfl, hx⟩ := append_inj' e rfl
    exact .inl ⟨rfl, singleton_inj.mp hx⟩
  · rw [concat_eq_append, ← cons_append, ← append_assoc] at e
    exact .inr ⟨post', (append_inj' e rfl).1⟩

variable {l : List String} {fuel : Nat}

theorem Preceded.concat (h : g.Preceded l) (hn : ∀ s ∈ g.sourcesOf n, s ∈ l) : g.Preceded (l ++ [n]) := by
  intro pre m post e
  rcases split_concat e with ⟨rfl, rfl⟩ | ⟨post', e⟩
  · exact hn
  · exact h pre m post' e

theorem Preceded.left {l' : List String} (h : g.Preceded (l ++ l')) : g.Preceded l := by
  intro pre n post e
  exact h pre n (post ++ l') (by rw [e]; simp)

theorem Preceded.source_mem {pre post : List String} {n m p : String} (h : g.Preceded l)
    (e : l = pre ++ n :: post) (hm : m ∈ pre ++ [n]) (hp : p ∈ g.sourcesOf m) : p ∈ pre := by
  rcases mem_append.mp hm with hm | hm
  · obtain ⟨a, b, rfl⟩ := append_of_mem hm
    exact mem_append_left _ (h a m (b ++ n :: post) (by rw [e]; simp) p hp)
  · rw [mem_singleton] at hm
    subst hm
    exact h pre m post e p hp

theorem Preceded.acc (h : g.Preceded l) : ∀ n ∈ l, Acc g.Feeds n := by
  induction l using reverseRecOn with
  | nil => intro n hn; cases hn
  | append_singleton l x ih =>
    intro n hn
    rcases mem_append.mp hn with hn | hn
    · exact ih h.left n hn
    · rw [mem_singleton] at hn
      subst hn
      exact ⟨n, fun s hs => ih h.left s (h l n [] rfl s hs)⟩

theorem cycleFree_of_acc (h : Acc g.Feeds n) : g.CycleFree n := by
  intro a ha
  have hacc : Acc (Relation.TransGen g.Feeds) a := by
    rcases Relation.reflTransGen_iff_eq_or_transGen.mp ha with rfl | ha
    · exact h.transGen
    · exact h.transGen.inv ha
  clear ha
  induction hacc with
  | intro x _ ih => exact fun hx => ih x hx hx

/-! ## Serving targets -/

theorem findD_release (p : Pending) (ts : List String) (t : String) :
    (release p ts).1.findD t 0 = p.findD t 0 - ts.count t := by
  induction ts generalizing p with
  | nil => simp [release]
  | cons u ts ih =>
    simp only [release, ih]
    by_cases h : u = t
    · subst h; simp; omega
    · simp [h]

/-- Targets that are served once each are released where they lack one source only. -/
theorem release_snd (p : Pending) {ts : List String} (h : ts.Nodup) :
    (release p ts).2 = ts.filter fun t => p.findD t 0 = 1 := by
  induction ts generalizing p with
  | nil => rfl
  | cons u ts ih =>
    rw [nodup_cons] at h
    have hrest : (ts.filter fun t => (p.insert u (p.findD u 0 - 1)).findD t 0 = 1) =
        ts.filter fun t => p.findD t 0 = 1 := by
      apply filter_congr
      intro t ht
      have hne : u ≠ t := fun e => h.1 (e ▸ ht)
      simp [hne]
    simp only [release, ih _ h.2, hrest, filter_cons, decide_eq_true_eq]
    have hone : p.findD u 0 - 1 = 0 ↔ p.findD u 0 = 1 := by omega
    simp only [hone]

theorem orderFrom_cons (g : Graph α) (fuel : Nat) (p : Pending) (n : String) (queue : List String) :
    orderFrom g (fuel + 1) p (n :: queue) = n :: orderFrom g fuel (release p (g.targetsOf n)).1
      (queue ++ (release p (g.targetsOf n)).2) := by
  simp only [orderFrom, targetsOf]
  cases g.vertices.find? n <;> rfl

/-! ## Served sources -/

def feeders (g : Graph α) (done : List String) (t : String) : List String :=
  done.filter fun a => (g.targetsOf a).contains t

theorem mem_feeders {a t : String} : a ∈ g.feeders done t ↔ a ∈ done ∧ t ∈ g.targetsOf a := by simp [feeders]

theorem feeders_concat (g : Graph α) (done : List String) (n t : String) :
    g.feeders (done ++ [n]) t = g.feeders done t ++ if t ∈ g.targetsOf n then [n] else [] := by
  by_cases h : t ∈ g.targetsOf n <;> simp [feeders, h]

theorem Wired.feeders_subperm (hw : g.Wired) (hd : done.Nodup)
    (t : String) : (g.feeders done t).Subperm (g.sourcesOf t) :=
  (hd.filter _).subperm fun a ha => hw.backed a t (mem_feeders.mp ha).2

theorem Wired.sources_subset (hw : g.Wired) (hd : done.Nodup) (h : (g.feeders done t).length = (g.sourcesOf t).length) :
    ∀ s ∈ g.sourcesOf t, s ∈ done := by
  intro s hs
  have hp := (hw.feeders_subperm hd t).perm_of_length_le (Nat.le_of_eq h.symm)
  exact (mem_feeders.mp (hp.mem_iff.mpr hs)).1

/-! ## The state of the work -/

/-- The vertices in `done` have been served and those in `queue` wait to be: they are the vertices all
of whose sources have been served. `p` counts the sources that each vertex still lacks. -/
structure Sorting (g : Graph α) (done queue : List String) (p : Pending) : Prop where
  nodup : (done ++ queue).Nodup
  listed : ∀ t, t ∈ done ++ queue ↔
    t ∈ g.vertices.keys ∧ (g.feeders done t).length = (g.sourcesOf t).length
  pending : ∀ t, p.findD t 0 = (g.sourcesOf t).length - (g.feeders done t).length
  preceded : g.Preceded done

theorem Sorting.length_le (h : g.Sorting done queue p) : done.length + queue.length ≤ g.vertices.size := by
  have hsub : (done ++ queue).Subperm g.vertices.keys :=
    h.nodup.subperm fun t ht => ((h.listed t).mp ht).1
  have := hsub.length_le
  simpa [Table.keys, Table.size] using this

/-- **Serving the next vertex.** Its targets wait for one source less, and those that lack none any
more join the queue. -/
theorem Sorting.serve (hw : g.Wired) (h : g.Sorting done (n :: queue) p) :
    g.Sorting (done ++ [n]) (queue ++ (release p (g.targetsOf n)).2) (release p (g.targetsOf n)).1 := by
  have hnd : (done ++ [n]).Nodup := by
    have := h.nodup
    rw [append_cons] at this
    exact (nodup_append.mp this).1
  have hdone : done.Nodup := (nodup_append.mp hnd).1
  -- a target of the vertex has not been listed yet: the vertex itself was missing
  have hnew : ∀ t ∈ g.targetsOf n, t ∉ done ++ n :: queue := by
    intro t ht hl
    have hle := (hw.feeders_subperm hnd t).length_le
    rw [feeders_concat, if_pos ht, length_append, length_singleton] at hle
    have := ((h.listed t).mp hl).2
    omega
  have hout : ∀ t, t ∈ (release p (g.targetsOf n)).2 ↔
      t ∈ g.targetsOf n ∧ (g.feeders done t).length + 1 = (g.sourcesOf t).length := by
    intro t
    rw [release_snd p (hw.targets_nodup n), mem_filter, decide_eq_true_eq, h.pending t]
    refine and_congr_right fun _ => ?_
    omega
  refine ⟨?_, fun t => ?_, fun t => ?_, ?_⟩
  · rw [← append_assoc, append_assoc done, nodup_append]
    refine ⟨h.nodup, ?_, ?_⟩
    · rw [release_snd p (hw.targets_nodup n)]
      exact (hw.targets_nodup n).filter _
    · rintro t ht _ ht' rfl
      exact hnew t ((hout t).mp ht').1 ht
  · rw [← append_assoc, append_assoc done, singleton_append, mem_append, h.listed t,
      hout t, feeders_concat]
    by_cases ht : t ∈ g.targetsOf n
    · have hkey : t ∈ g.vertices.keys := mem_keys_of_mem_sourcesOf (hw.backed n t ht)
      have hne := mt (h.listed t).mpr (hnew t ht)
      simp only [ht, hkey, length_append] at hne ⊢
      exact ⟨fun h' => h'.resolve_left hne, .inr⟩
    · simp [ht]
  · have hcount : ((g.targetsOf n).count t : Int) = if t ∈ g.targetsOf n then 1 else 0 := by
      split
      · rename_i ht
        rw [count_eq_one_of_mem (hw.targets_nodup n) ht]; rfl
      · rename_i ht
        rw [count_eq_zero_of_not_mem ht]; rfl
    rw [findD_release, h.pending t, feeders_concat, hcount]
    split
    · simp only [length_append, length_singleton]; omega
    · simp
  · have hn := (h.listed n).mp (mem_append_right _ (.head _))
    exact h.preceded.concat (hw.sources_subset hdone hn.2)

/-- **A whole run.** With fuel for every vertex not served yet, the work goes on until no vertex
waits. -/
theorem Sorting.run (hw : g.Wired) (h : g.Sorting done queue p) (hf : g.vertices.size ≤ fuel + done.length) :
    ∃ p', g.Sorting (done ++ orderFrom g fuel p queue) [] p' := by
  induction fuel generalizing done queue p with
  | zero =>
    have hq : queue = [] := eq_nil_of_length_eq_zero (by have := h.length_le; omega)
    subst hq
    exact ⟨p, by simpa [orderFrom] using h⟩
  | succ fuel ih =>
    cases queue with
    | nil => exact ⟨p, by simpa [orderFrom] using h⟩
    | cons n queue =>
      have hs := h.serve hw
      rw [orderFrom_cons, append_cons]
      exact ih hs (by rw [length_append, length_singleton]; omega)

theorem Sorting.orderFrom_add (hw : g.Wired) (h : g.Sorting done queue p)
    (hf : g.vertices.size ≤ fuel + done.length) (k : Nat) :
    orderFrom g (fuel + k) p queue = orderFrom g fuel p queue := by
  induction fuel generalizing done queue p with
  | zero =>
    have hq : queue = [] := eq_nil_of_length_eq_zero (by have := h.length_le; omega)
    subst hq
    cases k <;> simp [orderFrom]
  | succ fuel ih =>
    rw [Nat.add_right_comm]
    cases queue with
    | nil => simp [orderFrom]
    | cons n queue =>
      rw [orderFrom_cons, orderFrom_cons,
        ih (h.serve hw) (by rw [length_append, length_singleton]; omega)]

/-! ## The order of a finished graph -/

theorem mem_sourceless (h : g.vertices.keys.Nodup) : t ∈ g.sourceless ↔ t ∈ g.vertices.keys ∧ g.sourcesOf t = [] := by
  simp only [sourceless, List.mem_map, List.mem_filter, List.isEmpty_iff, Prod.exists, exists_and_right,
    exists_eq_right, Table.mem_keys_iff, ← Table.find?_eq_some_iff h]
  constructor
  · rintro ⟨v, hv, hs⟩
    exact ⟨⟨v, hv⟩, by rw [sourcesOf_of_find? hv, hs]⟩
  · rintro ⟨⟨v, hv⟩, hs⟩
    exact ⟨v, hv, by rw [← sourcesOf_of_find? hv, hs]⟩

def allPending (g : Graph α) : Pending := g.vertices.map fun _ v => v.sources.length

theorem orderOf_eq (g : Graph α) (starts : List String) :
    g.orderOf starts = orderFrom g (starts.length + g.vertices.size) g.allPending starts := rfl

theorem orderFrom_congr (h : g.vertices = g'.vertices) (fuel : Nat) (p : Pending)
    (queue : List String) : orderFrom g fuel p queue = orderFrom g' fuel p queue := by
  induction fuel generalizing p queue with
  | zero => rfl
  | succ fuel ih =>
    cases queue with
    | nil => rfl
    | cons n queue =>
      have ht : g.targetsOf n = g'.targetsOf n := by simp only [targetsOf, h]
      rw [orderFrom_cons, orderFrom_cons, ih, ht]

theorem orderOf_congr (h : g.vertices = g'.vertices) : g.orderOf g.sourceless = g'.orderOf g'.sourceless := by
  rw [orderOf_eq, orderOf_eq, orderFrom_congr h]
  simp only [sourceless, allPending, h]

theorem order_finish (h : g.inputs = []) : g.finish.order = g.orderOf g.sourceless := by
  simp [finish, h]

theorem sorting_start (hw : g.Wired) : g.Sorting [] g.sourceless g.allPending := by
  refine ⟨?_, fun t => ?_, fun t => ?_, .nil g⟩
  · exact hw.keys_nodup.sublist (filter_sublist.map _)
  · rw [nil_append, mem_sourceless hw.keys_nodup]
    exact and_congr_right fun _ =>
      ⟨fun h => by rw [h]; rfl, fun h => eq_nil_of_length_eq_zero h.symm⟩
  · simp only [allPending, Table.findD, Table.find?_map, sourcesOf, feeders]
    cases g.vertices.find? t <;> simp

/-- A target is released when it lacks its last source, and lacks none any more. -/
theorem release_released (p : Pending) (ts : List String) :
    (release p ts).2.Nodup ∧ ∀ t ∈ (release p ts).2, 0 < p.findD t 0 ∧ (release p ts).1.findD t 0 ≤ 0 := by
  induction ts generalizing p with
  | nil => exact ⟨nodup_nil, nofun⟩
  | cons u ts ih =>
    obtain ⟨hnodup, hall⟩ := ih (p.insert u (p.findD u 0 - 1))
    have hlater (t : String) (ht : t ∈ (release (p.insert u (p.findD u 0 - 1)) ts).2) :
        0 < p.findD t 0 ∧ (release p (u :: ts)).1.findD t 0 ≤ 0 := by
      obtain ⟨hbefore, hafter⟩ := hall t ht
      refine ⟨?_, hafter⟩
      rw [Table.findD_insert] at hbefore
      split at hbefore
      · rename_i e
        subst e
        omega
      · exact hbefore
    simp only [release]
    split
    · have hu : u ∉ (release (p.insert u (p.findD u 0 - 1)) ts).2 := by
        intro h
        have := (hall u h).1
        rw [Table.findD_insert, if_pos rfl] at this
        omega
      refine ⟨nodup_cons.mpr ⟨hu, hnodup⟩, fun t ht => ?_⟩
      rcases mem_cons.mp ht with rfl | ht
      · refine ⟨by omega, ?_⟩
        rw [findD_release, Table.findD_insert, if_pos rfl]
        omega
      · exact hlater t ht
    · exact ⟨hnodup, hlater⟩

/-- A vertex waits once: afterwards it lacks no source, and only a vertex that lacks some is released. -/
theorem nodup_orderFrom (g : Graph α) (fuel : Nat) (hq : queue.Nodup) (hp : ∀ t ∈ queue, p.findD t 0 ≤ 0) :
    (orderFrom g fuel p queue).Nodup ∧ ∀ t ∈ orderFrom g fuel p queue, t ∈ queue ∨ 0 < p.findD t 0 := by
  induction fuel generalizing p queue with
  | zero => exact ⟨nodup_nil, nofun⟩
  | succ fuel ih =>
    cases queue with
    | nil => exact ⟨nodup_nil, nofun⟩
    | cons n queue =>
      obtain ⟨hout, hall⟩ := release_released p (g.targetsOf n)
      have hmono (t : String) : (release p (g.targetsOf n)).1.findD t 0 ≤ p.findD t 0 := by
        rw [findD_release]
        omega
      have hnew : ∀ t ∈ queue, t ∉ (release p (g.targetsOf n)).2 := by
        intro t ht h
        have := hp t (.tail _ ht)
        have := (hall t h).1
        omega
      have hnodup : (queue ++ (release p (g.targetsOf n)).2).Nodup :=
        nodup_append.mpr ⟨(nodup_cons.mp hq).2, hout, fun a ha b hb e => hnew a ha (e ▸ hb)⟩
      obtain ⟨hrest, hmem⟩ := ih hnodup fun t ht => by
        rcases mem_append.mp ht with ht | ht
        · exact Int.le_trans (hmono t) (hp t (.tail _ ht))
        · exact (hall t ht).2
      have hkinds (t : String) (ht : t ∈ orderFrom g fuel (release p (g.targetsOf n)).1
          (queue ++ (release p (g.targetsOf n)).2)) : t ∈ queue ∨ 0 < p.findD t 0 := by
        rcases hmem t ht with ht | ht
        · exact (mem_append.mp ht).imp_right fun h => (hall t h).1
        · exact .inr (Int.lt_of_lt_of_le ht (hmono t))
      rw [orderFrom_cons]
      refine ⟨nodup_cons.mpr ⟨fun hn => ?_, hrest⟩, fun t ht => ?_⟩
      · rcases hkinds n hn with h | h
        · exact (nodup_cons.mp hq).1 h
        · exact absurd h (Int.not_lt.mpr (hp n (.head _)))
      · rcases mem_cons.mp ht with rfl | ht
        · exact .inl (.head _)
        · exact (hkinds t ht).imp_left (mem_cons_of_mem _)

/-- The order lists no vertex twice, whatever the edges are. -/
theorem nodup_orderOf (h : g.vertices.keys.Nodup) : (g.orderOf g.sourceless).Nodup := by
  have hstarts : g.sourceless.Nodup := h.sublist (filter_sublist.map _)
  rw [orderOf_eq]
  refine (nodup_orderFrom g _ hstarts fun t ht => ?_).1
  have hnone := ((mem_sourceless h).mp ht).2
  rw [sourcesOf] at hnone
  rw [allPending, Table.findD, Table.find?_map]
  cases hv : g.vertices.find? t with
  | none => simp
  | some v =>
    rw [hv] at hnone
    simp [show v.sources = [] from hnone]

section
variable {g : Graph α} (hw : g.Wired)
include hw

theorem sorting_orderOf : ∃ p, g.Sorting (g.orderOf g.sourceless) [] p := by
  have hf : g.vertices.size ≤ g.sourceless.length + g.vertices.size + ([] : List String).length := by simp
  have := (sorting_start hw).run hw hf
  rwa [← orderOf_eq, nil_append] at this

theorem orderFrom_start_add (k : Nat) :
    orderFrom g (g.sourceless.length + g.vertices.size + k) g.allPending g.sourceless =
      g.orderOf g.sourceless :=
  (sorting_start hw).orderFrom_add hw (by simp) k

theorem orderOf_nodup : (g.orderOf g.sourceless).Nodup := nodup_orderOf hw.keys_nodup

theorem orderOf_preceded : g.Preceded (g.orderOf g.sourceless) := by
  obtain ⟨p, h⟩ := sorting_orderOf hw
  exact h.preceded

theorem mem_keys_of_mem_orderOf (ht : t ∈ g.orderOf g.sourceless) : t ∈ g.vertices.keys := by
  obtain ⟨p, h⟩ := sorting_orderOf hw
  exact ((h.listed t).mp (by simpa using ht)).1

end

theorem mem_orderOf_wired (hw : g.Wired) (hs : (g.sourcesOf t).Nodup) :
    t ∈ g.orderOf g.sourceless ↔ t ∈ g.vertices.keys ∧
      ∀ s ∈ g.sourcesOf t, s ∈ g.orderOf g.sourceless ∧ t ∈ g.targetsOf s := by
  obtain ⟨p, h⟩ := sorting_orderOf hw
  have hl := h.listed t
  rw [append_nil] at hl
  rw [hl]
  have hsub := hw.feeders_subperm (orderOf_nodup hw) t
  refine and_congr_right fun _ => ⟨fun e s hst => ?_, fun hall => ?_⟩
  · exact mem_feeders.mp ((hsub.perm_of_length_le (Nat.le_of_eq e.symm)).mem_iff.mpr hst)
  · have hge : (g.sourcesOf t).Subperm (g.feeders (g.orderOf g.sourceless) t) :=
      hs.subperm fun s hst => mem_feeders.mpr (hall s hst)
    exact Nat.le_antisymm hsub.length_le hge.length_le

section
variable {g : Graph α} (hm : g.Mirrored)
include hm

theorem mem_orderOf_iff : t ∈ g.orderOf g.sourceless ↔
    t ∈ g.vertices.keys ∧ ∀ s ∈ g.sourcesOf t, s ∈ g.orderOf g.sourceless := by
  rw [mem_orderOf_wired hm.toWired (hm.sources_nodup t)]
  refine and_congr_right fun _ => ⟨fun h s hs => (h s hs).1, fun h s hs => ?_⟩
  exact ⟨h s hs, hm.mirrored s t hs⟩

theorem mem_keys_of_feeds {a b : String} (h : g.Feeds a b) : a ∈ g.vertices.keys :=
  mem_keys_of_mem_targetsOf (hm.mirrored a b h)

theorem mem_orderOf_of_cycleFree (ht : t ∈ g.vertices.keys) (hc : g.CycleFree t) : t ∈ g.orderOf g.sourceless := by
  -- only finitely many vertices are behind it and none is behind itself, so going back ends
  let behind := {a // Relation.ReflTransGen g.Feeds a t}
  have hkey : ∀ a : behind, a.1 ∈ g.vertices.keys := by
    rintro ⟨a, ha⟩
    rcases Relation.ReflTransGen.cases_head ha with rfl | ⟨b, hab, _⟩
    · exact ht
    · exact mem_keys_of_feeds hm hab
  have hfin : Finite behind :=
    Finite.of_injective (fun a : behind => (⟨a.1, hkey a⟩ : {x // x ∈ g.vertices.keys}))
      fun a b h => Subtype.ext (congrArg (·.1) h)
  let earlier : behind → behind → Prop := fun a b => Relation.TransGen g.Feeds a.1 b.1
  have hirr : Std.Irrefl earlier := ⟨fun a => hc a.1 a.2⟩
  have hall : ∀ a : behind, a.1 ∈ g.orderOf g.sourceless := by
    intro a
    induction a using (Finite.wellFounded_of_trans_of_irrefl earlier).induction with
    | _ a ih =>
      refine (mem_orderOf_iff hm).mpr ⟨hkey a, fun s hs => ?_⟩
      exact ih ⟨s, .head hs a.2⟩ (.single hs)
  exact hall ⟨t, .refl⟩

theorem mem_orderOf_iff_cycleFree : t ∈ g.orderOf g.sourceless ↔ t ∈ g.vertices.keys ∧ g.CycleFree t := by
  constructor
  · intro h
    exact ⟨mem_keys_of_mem_orderOf hm.toWired h,
      cycleFree_of_acc ((orderOf_preceded hm.toWired).acc t h)⟩
  · intro h
    exact mem_orderOf_of_cycleFree hm h.1 h.2

theorem orderOf_perm_iff :
    (g.orderOf g.sourceless).Perm g.vertices.keys ↔ ∀ a, ¬Relation.TransGen g.Feeds a a := by
  rw [perm_ext_iff_of_nodup (orderOf_nodup hm.toWired) hm.keys_nodup]
  constructor
  · intro h a ha
    obtain ⟨b, hab, _⟩ := Relation.TransGen.head'_iff.mp ha
    have hlisted := (h a).mpr (mem_keys_of_feeds hm hab)
    exact ((mem_orderOf_iff_cycleFree hm).mp hlisted).2 a .refl ha
  · intro hc t
    rw [mem_orderOf_iff_cycleFree hm]
    exact and_iff_left fun a _ => hc a

end

/-! ## Graphs that grow vertex by vertex

While a graph grows an edge that its source knows is known to its target, and a target has had its turn (`Grown`). -/

/-! ## Names -/

/-- A graph under construction, whatever its edges are: every vertex has the name it stands under, and so has its
output. -/
structure Labelled (g : Graph α) : Prop where
  keys_nodup : g.vertices.keys.Nodup
  named : ∀ m v, g.bareOf m = some v → v.name = m ∧ v.outputName = m
  inputs_nil : g.inputs = []

theorem Labelled.empty : ({} : Graph α).Labelled := ⟨nodup_nil, nofun, rfl⟩

theorem Labelled.add (h : g.Labelled) (n : String) (x : α) : (g.add n x).Labelled := by
  refine ⟨nodup_keys_add h.keys_nodup n x, fun m v hv => ?_, h.inputs_nil⟩
  rw [bareOf_add] at hv
  split at hv
  · rename_i e
    cases hv
    exact ⟨e, e⟩
  · exact h.named m v hv

theorem Labelled.connect (h : g.Labelled) (a n : String) : (g.connect a n).1.Labelled := by
  refine ⟨?_, fun m v hv => h.named m v (by rwa [bareOf_connect] at hv), ?_⟩
  · rw [keys_connect]
    exact h.keys_nodup
  · rw [inputs_connect]
    exact h.inputs_nil

theorem Labelled.connectAll (h : g.Labelled) (es : List (String × String)) : (g.connectAll es).1.Labelled :=
  connectAll_keeps (fun _ a b h => h.connect a b) h

theorem Labelled.find? (h : g.Labelled) {m : String} {v : Vertex α} (hv : g.vertices.find? m = some v) :
    v.name = m ∧ v.outputName = m :=
  h.named m v.bare (by rw [bareOf, hv]; rfl)

theorem Labelled.nodup_order (h : g.Labelled) : g.finish.order.Nodup := by
  rw [order_finish h.inputs_nil]
  exact nodup_orderOf h.keys_nodup

/-! ## Turns -/

structure Grown (g : Graph α) (seen : List String) : Prop extends g.Labelled where
  targets_nodup : ∀ a, (g.targetsOf a).Nodup
  backed : ∀ a t, t ∈ g.targetsOf a → t ∈ seen ∧ a ∈ g.sourcesOf t
  seen_keys : ∀ m ∈ seen, m ∈ g.vertices.keys

theorem Grown.empty : ({} : Graph α).Grown [] where
  toLabelled := .empty
  targets_nodup _ := nodup_nil
  backed a t h := by cases h
  seen_keys m h := by cases h

section
variable {seen : List String}

/-- A vertex that has not had its turn may be put in, also in the place of an older one. -/
theorem Grown.add (h : g.Grown seen) (hn : n ∉ seen) (x : α) : (g.add n x).Grown seen where
  toLabelled := h.toLabelled.add n x
  targets_nodup a := by
    rw [targetsOf_add]
    split
    · exact nodup_nil
    · exact h.targets_nodup a
  backed a t ht := by
    rw [targetsOf_add] at ht
    split at ht
    · cases ht
    · obtain ⟨hs, ha⟩ := h.backed a t ht
      have hne : n ≠ t := fun e => hn (e ▸ hs)
      rw [sourcesOf_add, if_neg hne]
      exact ⟨hs, ha⟩
  seen_keys m hm := mem_keys_add.mpr (.inr (h.seen_keys m hm))

theorem Grown.see (h : g.Grown seen) (hn : n ∈ g.vertices.keys) : g.Grown (n :: seen) where
  toLabelled := h.toLabelled
  targets_nodup := h.targets_nodup
  backed a t ht := ⟨.tail _ (h.backed a t ht).1, (h.backed a t ht).2⟩
  seen_keys m hm := by
    rcases mem_cons.mp hm with rfl | hm
    · exact hn
    · exact h.seen_keys m hm

theorem Grown.connect (h : g.Grown seen) (a : String) (hn : n ∈ seen) : (g.connect a n).1.Grown seen where
  toLabelled := h.toLabelled.connect a n
  targets_nodup m := nodup_targetsOf_connect (h.targets_nodup m) a n
  backed c t ht := by
    rw [mem_sourcesOf_connect]
    rcases mem_targetsOf_connect.mp ht with ht | ⟨e, hj⟩
    · exact ⟨(h.backed c t ht).1, .inl (h.backed c t ht).2⟩
    · obtain ⟨rfl, rfl⟩ := Prod.mk.inj e
      exact ⟨hn, .inr ⟨rfl, hj⟩⟩
  seen_keys m hm := by
    rw [keys_connect]
    exact h.seen_keys m hm

theorem Grown.preceded_order (h : g.Grown seen) : g.finish.Preceded g.finish.order := by
  have hp := orderOf_preceded ⟨h.keys_nodup, h.targets_nodup, fun a t ht => (h.backed a t ht).2⟩
  rw [order_finish h.inputs_nil]
  exact hp

end

/-! ## New vertices and edges of a mirrored graph -/

theorem Mirrored.empty : ({} : Graph α).Mirrored where
  keys_nodup := nodup_nil
  targets_nodup _ := nodup_nil
  backed a t h := by cases h
  sources_nodup _ := nodup_nil
  mirrored a t h := by cases h

theorem Mirrored.add (h : g.Mirrored) (hn : n ∉ g.vertices.keys) (x : α) : (g.add n x).Mirrored where
  keys_nodup := nodup_keys_add h.keys_nodup n x
  targets_nodup a := by
    rw [targetsOf_add]
    split
    · exact nodup_nil
    · exact h.targets_nodup a
  sources_nodup a := by
    rw [sourcesOf_add]
    split
    · exact nodup_nil
    · exact h.sources_nodup a
  backed a t ht := by
    rw [targetsOf_add] at ht
    split at ht
    · cases ht
    · have ha := h.backed a t ht
      have hne : n ≠ t := fun e => hn (e ▸ mem_keys_of_mem_sourcesOf ha)
      rwa [sourcesOf_add, if_neg hne]
  mirrored a t ha := by
    rw [sourcesOf_add] at ha
    split at ha
    · cases ha
    · have ht := h.mirrored a t ha
      have hne : n ≠ a := fun e => hn (e ▸ mem_keys_of_mem_targetsOf ht)
      rwa [targetsOf_add, if_neg hne]

theorem Mirrored.connectAll (h : g.Mirrored) (es : List (String × String)) : (g.connectAll es).1.Mirrored where
  keys_nodup := by
    rw [keys_connectAll]
    exact h.keys_nodup
  targets_nodup a := nodup_targetsOf_connectAll (h.targets_nodup a)
  sources_nodup a := nodup_sourcesOf_connectAll (h.sources_nodup a)
  backed a t ht := by
    rw [mem_targetsOf_connectAll] at ht
    rw [mem_sourcesOf_connectAll]
    exact ht.imp (h.backed a t) id
  mirrored a t ha := by
    rw [mem_sourcesOf_connectAll] at ha
    rw [mem_targetsOf_connectAll]
    exact ha.imp (h.mirrored a t) id

end NetBridge.Graph
