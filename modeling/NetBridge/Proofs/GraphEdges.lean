import NetBridge.Graph.Basic
import NetBridge.Proofs.RunSteps
import NetBridge.Proofs.TableView

/-!
# Edges of a graph

A graph keeps every edge twice, with its source and with its target (`targetsOf`, `sourcesOf`). `Renamed` graphs differ
in the names of the outputs of their vertices only.
-/

namespace NetBridge

open Table List

def Vertex.bare {α : Type} (v : Vertex α) : Vertex α := { v with sources := [], targets := [] }

namespace Graph

variable {α : Type} {g g' : Graph α} {a b n m : String} {v : Vertex α} {es : List (String × String)}
  {out : String → String}

/-- The sources that the vertex of a name lists; none if there is no such vertex. -/
def sourcesOf (g : Graph α) (n : String) : List String := (g.vertices.find? n).elim [] (·.sources)

def targetsOf (g : Graph α) (n : String) : List String := (g.vertices.find? n).elim [] (·.targets)

def bareOf (g : Graph α) (n : String) : Option (Vertex α) := (g.vertices.find? n).map Vertex.bare

def Joins (g : Graph α) (a b : String) : Prop := a ≠ b ∧ a ∈ g.vertices.keys ∧ b ∈ g.vertices.keys

instance (g : Graph α) (a b : String) : Decidable (g.Joins a b) :=
  inferInstanceAs (Decidable (a ≠ b ∧ a ∈ g.vertices.keys ∧ b ∈ g.vertices.keys))

theorem sourcesOf_of_find? (h : g.vertices.find? n = some v) : g.sourcesOf n = v.sources := by simp [sourcesOf, h]

theorem targetsOf_of_find? (h : g.vertices.find? n = some v) : g.targetsOf n = v.targets := by simp [targetsOf, h]

theorem mem_keys_of_mem_sourcesOf (h : a ∈ g.sourcesOf b) : b ∈ g.vertices.keys := by
  refine Classical.byContradiction fun hb => ?_
  simp [sourcesOf, find?_eq_none_iff.mpr hb] at h

theorem mem_keys_of_mem_targetsOf (h : b ∈ g.targetsOf a) : a ∈ g.vertices.keys := by
  refine Classical.byContradiction fun ha => ?_
  simp [targetsOf, find?_eq_none_iff.mpr ha] at h

theorem has_iff : g.has n = true ↔ n ∈ g.vertices.keys :=
  contains_iff g.vertices n

/-! ## Names added once -/

variable {names : List String} {c d : String}

theorem mem_addNew : a ∈ addNew names b ↔ a ∈ names ∨ a = b := by
  unfold addNew
  split
  · rename_i h
    rw [contains_iff_mem] at h
    exact ⟨.inl, fun h' => h'.elim id fun e => e ▸ h⟩
  · simp

theorem nodup_addNew (h : names.Nodup) (b : String) : (addNew names b).Nodup := by
  unfold addNew
  split
  · exact h
  · rename_i hb
    rw [contains_iff_mem] at hb
    rw [nodup_append]
    refine ⟨h, nodup_singleton b, fun x hx y hy e => hb ?_⟩
    rw [mem_singleton] at hy
    rwa [← hy, ← e]

theorem foldl_addNew (l acc : List String) :
    l.foldl addNew acc = acc ++ (l.filter fun x => !acc.contains x).eraseDups := by
  induction l generalizing acc with
  | nil => simp
  | cons x l ih =>
    rw [foldl_cons, ih, addNew]
    by_cases hx : acc.contains x = true
    · simp only [hx, ite_true, filter_cons, Bool.not_true, Bool.false_eq_true, ite_false]
    · simp only [hx, Bool.false_eq_true, ite_false, filter_cons, Bool.not_false, ite_true,
        eraseDups_cons, filter_filter, append_assoc, singleton_append]
      congr 3
      apply filter_congr
      intro y _
      by_cases hy : y = x <;> simp [hy]

/-! ## Adding a vertex -/

section
variable (g n) (x : α) (m)

@[simp] theorem sourcesOf_add : (g.add n x).sourcesOf m = if n = m then [] else g.sourcesOf m := by
  simp only [sourcesOf, add, find?_insert]
  split <;> rfl

@[simp] theorem targetsOf_add : (g.add n x).targetsOf m = if n = m then [] else g.targetsOf m := by
  simp only [targetsOf, add, find?_insert]
  split <;> rfl

theorem bareOf_add : (g.add n x).bareOf m = if n = m then some { name := n, item := x } else g.bareOf m := by
  simp only [bareOf, add, find?_insert]
  split <;> rfl

end

theorem mem_keys_add {x : α} : m ∈ (g.add n x).vertices.keys ↔ m = n ∨ m ∈ g.vertices.keys :=
  mem_keys_insert

theorem nodup_keys_add (h : g.vertices.keys.Nodup) (n : String) (x : α) : (g.add n x).vertices.keys.Nodup :=
  nodup_keys_insert h n _

/-! ## Connecting two vertices -/

theorem connect_of_joins (h : g.Joins a b) :
    (g.connect a b).1 = (g.modify a fun v => { v with targets := addNew v.targets b }).modify b
      fun v => { v with sources := addNew v.sources a } := by
  have hc : (a = b || !g.has a || !g.has b) = false := by
    simp [has_iff.mpr h.2.1, has_iff.mpr h.2.2, h.1]
  simp only [connect, hc, Bool.false_eq_true, ite_false]

theorem connect_of_not_joins (h : ¬g.Joins a b) : (g.connect a b).1 = g := by
  have hc : (a = b || !g.has a || !g.has b) = true := by
    simp only [Bool.or_eq_true, decide_eq_true_eq, Bool.not_eq_true', Bool.eq_false_iff, ne_eq, has_iff]
    simp only [Joins] at h
    tauto
  simp only [connect, hc, ite_true]

section
variable (g a b m)

@[simp] theorem keys_connect : (g.connect a b).1.vertices.keys = g.vertices.keys := by
  by_cases h : g.Joins a b
  · rw [connect_of_joins h]; simp [modify]
  · rw [connect_of_not_joins h]

@[simp] theorem joins_connect : (g.connect a b).1.Joins c d ↔ g.Joins c d := by simp [Joins]

theorem sourcesOf_connect :
    (g.connect a b).1.sourcesOf m = if g.Joins a b ∧ b = m then addNew (g.sourcesOf m) a else g.sourcesOf m := by
  by_cases h : g.Joins a b
  · rw [connect_of_joins h]
    simp only [sourcesOf, modify, find?_modify, h]
    obtain ⟨v, hv⟩ := mem_keys_iff.mp h.2.2
    by_cases hb : b = m
    · subst hb; simp [hv, h.1]
    · cases g.vertices.find? m <;> by_cases ha : a = m <;> simp [hb, ha]
  · rw [connect_of_not_joins h]; simp [h]

theorem targetsOf_connect :
    (g.connect a b).1.targetsOf m = if g.Joins a b ∧ a = m then addNew (g.targetsOf m) b else g.targetsOf m := by
  by_cases h : g.Joins a b
  · rw [connect_of_joins h]
    simp only [targetsOf, modify, find?_modify, h]
    obtain ⟨v, hv⟩ := mem_keys_iff.mp h.2.1
    by_cases ha : a = m
    · subst ha; simp [hv, Ne.symm h.1]
    · cases g.vertices.find? m <;> by_cases hb : b = m <;> simp [hb, ha]
  · rw [connect_of_not_joins h]; simp [h]

@[simp] theorem bareOf_connect : (g.connect a b).1.bareOf m = g.bareOf m := by
  by_cases h : g.Joins a b
  · rw [connect_of_joins h]
    simp only [bareOf, modify, find?_modify]
    cases g.vertices.find? m <;> by_cases ha : a = m <;> by_cases hb : b = m <;>
      simp [ha, hb, Vertex.bare]
  · rw [connect_of_not_joins h]

@[simp] theorem inputs_connect : (g.connect a b).1.inputs = g.inputs := by
  by_cases h : g.Joins a b
  · rw [connect_of_joins h]; rfl
  · rw [connect_of_not_joins h]

end

theorem mem_sourcesOf_connect :
    c ∈ (g.connect a b).1.sourcesOf d ↔ c ∈ g.sourcesOf d ∨ (c, d) = (a, b) ∧ g.Joins a b := by
  rw [sourcesOf_connect]
  by_cases h : g.Joins a b ∧ b = d
  · obtain ⟨h, rfl⟩ := h
    simp [h, mem_addNew]
  · rw [if_neg h]
    refine ⟨.inl, fun h' => h'.elim id ?_⟩
    rintro ⟨e, hj⟩
    exact absurd ⟨hj, (Prod.mk.inj e).2.symm⟩ h

theorem mem_targetsOf_connect :
    d ∈ (g.connect a b).1.targetsOf c ↔ d ∈ g.targetsOf c ∨ (c, d) = (a, b) ∧ g.Joins a b := by
  rw [targetsOf_connect]
  by_cases h : g.Joins a b ∧ a = c
  · obtain ⟨h, rfl⟩ := h
    simp [h, mem_addNew]
  · rw [if_neg h]
    refine ⟨.inl, fun h' => h'.elim id ?_⟩
    rintro ⟨e, hj⟩
    exact absurd ⟨hj, (Prod.mk.inj e).1.symm⟩ h

theorem nodup_sourcesOf_connect (h : (g.sourcesOf m).Nodup) (a b : String) : ((g.connect a b).1.sourcesOf m).Nodup := by
  rw [sourcesOf_connect]
  split
  · exact nodup_addNew h a
  · exact h

theorem nodup_targetsOf_connect (h : (g.targetsOf m).Nodup) (a b : String) : ((g.connect a b).1.targetsOf m).Nodup := by
  rw [targetsOf_connect]
  split
  · exact nodup_addNew h b
  · exact h

/-! ## Connecting many pairs -/

theorem connectAll_cons (g : Graph α) (e : String × String) (es : List (String × String)) :
    (g.connectAll (e :: es)).1 = ((g.connect e.1 e.2).1.connectAll es).1 := rfl

/-- What a new edge leaves true, many leave true. -/
theorem connectAll_keeps {P : Graph α → Prop} (hP : ∀ g a b, P g → P (g.connect a b).1) (h : P g) :
    P (g.connectAll es).1 := by
  induction es generalizing g with
  | nil => exact h
  | cons e es ih => exact ih (hP g e.1 e.2 h)

section
variable (g es m)

@[simp] theorem keys_connectAll : (g.connectAll es).1.vertices.keys = g.vertices.keys :=
  connectAll_keeps (fun h a b => (keys_connect h a b).trans) rfl

@[simp] theorem bareOf_connectAll : (g.connectAll es).1.bareOf m = g.bareOf m :=
  connectAll_keeps (fun h a b => (bareOf_connect h a b m).trans) rfl

@[simp] theorem inputs_connectAll : (g.connectAll es).1.inputs = g.inputs :=
  connectAll_keeps (fun h a b => (inputs_connect h a b).trans) rfl

theorem sourcesOf_connectAll :
    (g.connectAll es).1.sourcesOf m =
      ((es.filter fun e => g.Joins e.1 e.2 ∧ e.2 = m).map (·.1)).foldl addNew (g.sourcesOf m) := by
  induction es generalizing g with
  | nil => rfl
  | cons e es ih =>
    rw [connectAll_cons, ih, sourcesOf_connect]
    simp only [joins_connect, filter_cons, decide_eq_true_eq]
    split <;> rfl

end

theorem joined_cons {e : String × String} : (a, b) = (e.1, e.2) ∧ g.Joins e.1 e.2 ∨ (a, b) ∈ es ∧ g.Joins a b ↔
      (a, b) ∈ e :: es ∧ g.Joins a b := by
  rw [mem_cons, or_and_right]
  refine or_congr_left (and_congr_right fun h => ?_)
  obtain ⟨rfl, rfl⟩ := Prod.mk.inj h
  rfl

theorem mem_sourcesOf_connectAll :
    a ∈ (g.connectAll es).1.sourcesOf b ↔ a ∈ g.sourcesOf b ∨ (a, b) ∈ es ∧ g.Joins a b := by
  induction es generalizing g with
  | nil => simp [connectAll]
  | cons e es ih =>
    rw [connectAll_cons, ih, mem_sourcesOf_connect, joins_connect, or_assoc, joined_cons]

theorem mem_targetsOf_connectAll :
    b ∈ (g.connectAll es).1.targetsOf a ↔ b ∈ g.targetsOf a ∨ (a, b) ∈ es ∧ g.Joins a b := by
  induction es generalizing g with
  | nil => simp [connectAll]
  | cons e es ih =>
    rw [connectAll_cons, ih, mem_targetsOf_connect, joins_connect, or_assoc, joined_cons]

theorem nodup_sourcesOf_connectAll (h : (g.sourcesOf m).Nodup) : ((g.connectAll es).1.sourcesOf m).Nodup :=
  connectAll_keeps (P := fun g => (g.sourcesOf m).Nodup) (fun _ a b h => nodup_sourcesOf_connect h a b) h

theorem nodup_targetsOf_connectAll (h : (g.targetsOf m).Nodup) : ((g.connectAll es).1.targetsOf m).Nodup :=
  connectAll_keeps (P := fun g => (g.targetsOf m).Nodup) (fun _ a b h => nodup_targetsOf_connect h a b) h

/-! ## Looking vertices up -/

theorem vertex_eq_ok : g.vertex n = .ok v ↔ g.vertices.find? n = some v :=
  get_eq_ok

/-- The path to the first neighbour. -/
theorem follow_first (g : Graph α) (d : Direction) (n : String) (mark : Bool) : (g.follow d n [0] mark).1 =
    (do (d.next (← g.vertex n)).head?.elim (.ok none) fun t =>
      ((if mark then g.modify t fun w => { w with covered := true } else g).vertex t).map some) := by
  rw [follow]
  cases g.vertex n with
  | error f => rfl
  | ok v =>
    show (walk d mark g v [0]).1 = (d.next v).head?.elim _ _
    cases ht : d.next v with
    | nil => simp [walk, step, ht]
    | cons t rest =>
      have hlen : ¬((t :: rest).length : Int) ≤ 0 := by simp
      simp only [walk, step, ht, hlen, ite_false, Int.lt_irrefl, Int.toNat_zero, getElem?_cons_zero, Int.le_refl,
        ite_true,
        head?_cons, Option.elim_some]
      generalize Graph.vertex _ t = r
      cases r <;> rfl

theorem follow_first_cases {d : Direction} {mark : Bool} {o : Option (Vertex α)}
    (h : (g.follow d n [0] mark).1 = .ok o) :
    ∃ v, g.vertices.find? n = some v ∧ (o = none ∧ d.next v = [] ∨ ∃ t u, o = some u ∧ (d.next v).head? = some t ∧
      (if mark then g.modify t fun w => { w with covered := true } else g).vertices.find? t = some u) := by
  rw [follow_first] at h
  obtain ⟨v, hv, h⟩ := bind_cases h
  refine ⟨v, vertex_eq_ok.mp hv, ?_⟩
  cases ht : d.next v with
  | nil =>
    rw [ht] at h
    cases h
    exact .inl ⟨rfl, rfl⟩
  | cons t rest =>
    rw [ht] at h
    obtain ⟨u, hu, rfl⟩ := except_map_eq_ok.mp h
    exact .inr ⟨t, u, rfl, rfl, vertex_eq_ok.mp hu⟩

theorem parent_eq_ok {w : Vertex α} (h : g.parent n = .ok (some w)) :
    ∃ v p, g.vertices.find? n = some v ∧ v.sources.head? = some p ∧ g.vertices.find? p = some w := by
  obtain ⟨v, hv, ⟨⟨⟩, -⟩ | ⟨p, _, ⟨⟩, hp, hw⟩⟩ := follow_first_cases h
  exact ⟨v, p, hv, hp, hw⟩

theorem walk_unmarked (d : Direction) (g : Graph α) (v : Vertex α) (path : List Int) :
    (walk d false g v path).2 = g := by
  induction path generalizing v with
  | nil => rfl
  | cons i path ih =>
    unfold walk
    split
    · rfl
    · rfl
    · simp only [Bool.false_eq_true]
      split
      · rfl
      · exact ih _

theorem follow_unmarked (g : Graph α) (d : Direction) (n : String) (path : List Int) :
    (g.follow d n path false).2 = g := by
  unfold follow
  split
  · rfl
  · exact walk_unmarked d g _ path

/-! ## Other output names -/

def Renamed (g : Graph α) (out : String → String) (g' : Graph α) : Prop :=
  ∀ m, g'.vertices.find? m = (g.vertices.find? m).map fun v => { v with outputName := out m }

theorem Renamed.of_find? (h : g.Renamed out g') (hv : g'.vertices.find? m = some v) :
    ∃ u, g.vertices.find? m = some u ∧ v = { u with outputName := out m } := by
  rw [h m, Option.map_eq_some_iff] at hv
  obtain ⟨u, hu, rfl⟩ := hv
  exact ⟨u, hu, rfl⟩

theorem Renamed.sourcesOf (h : g.Renamed out g') (m : String) : g'.sourcesOf m = g.sourcesOf m := by
  rw [Graph.sourcesOf, Graph.sourcesOf, h m]
  cases g.vertices.find? m <;> rfl

def renameAt (out : String → String) (n q : String) : String → String := fun m => if n = m then q else out m

section
variable (out)

@[simp] theorem renameAt_self (n q : String) : renameAt out n q n = q := by
  simp [renameAt]

theorem renameAt_of_ne (q : String) (h : m ≠ n) : renameAt out n q m = out m := by
  simp [renameAt, Ne.symm h]

@[simp] theorem renameAt_same (n : String) : renameAt out n (out n) = out := by
  funext m
  unfold renameAt
  split
  · rename_i h; rw [h]
  · rfl

end

section
variable {done : List String} {q : String}

theorem fresh_renameAt (h : ∀ m, m ∉ done → out m = m) (n q : String) :
    ∀ m, m ∉ done ++ [n] → renameAt out n q m = m := by
  intro m hm
  rw [mem_append, mem_singleton, not_or] at hm
  rw [renameAt_of_ne out q hm.2, h m hm.1]

theorem forall_renameAt {P : String → String → Prop} (h : ∀ m ∈ done, P m (out m)) (hq : P n q) :
    ∀ m ∈ done ++ [n], P m (renameAt out n q m) := by
  intro m hm
  by_cases e : m = n
  · rwa [e, renameAt_self]
  · rw [renameAt_of_ne out q e]
    exact h m (by simpa [e] using hm)

end

theorem Renamed.modify (h : g.Renamed out g') (n q : String) :
    g.Renamed (renameAt out n q) (g'.modify n fun u => { u with outputName := q }) := by
  intro m
  rw [Graph.modify, find?_modify, h m]
  by_cases hm : n = m
  · simp [hm, Function.comp_def]
  · simp [hm, renameAt]

theorem renamed_id (h : ∀ m v, g.vertices.find? m = some v → v.outputName = m) : g.Renamed id g := by
  intro m
  cases hm : g.vertices.find? m with
  | none => rfl
  | some v => rw [Option.map_some, id, ← h m v hm]

end Graph

end NetBridge
