import NetBridge.Table
import Mathlib.Data.List.Nodup

/-!
# Tables as partial functions

What changing, removing, mapping and filtering do to the value under a name and to the list of names.
-/

namespace NetBridge.Table

open List

universe u v

variable {β : Type u} {γ : Type v}

/-! ## Values under a name -/

theorem findIn_map (f : String → β → γ) (k : String) (es : List (String × β)) :
    findIn k (es.map fun e => (e.1, f e.1 e.2)) = (findIn k es).map (f k) := by
  induction es with
  | nil => rfl
  | cons e r ih =>
    obtain ⟨n, c⟩ := e
    by_cases h : n = k
    · subst h; simp [findIn]
    · simp [findIn, h, ih]

@[simp] theorem find?_map (t : Table β) (f : String → β → γ) (k : String) :
    (t.map f).find? k = (t.find? k).map (f k) :=
  findIn_map f k t.entries

variable {es : List (String × β)} {k : String} {t : Table β} {b : β}

theorem get_eq_ok {ε : Type} {f : ε} : t.get k f = .ok b ↔ t.find? k = some b := by
  unfold get
  cases t.find? k <;> simp

theorem insertIn_same (h : findIn k es = some b) : insertIn k b es = es := by
  induction es with
  | nil => cases h
  | cons e r ih =>
    obtain ⟨n, c⟩ := e
    by_cases hn : n = k
    · simp only [findIn, hn, ite_true, Option.some.injEq] at h
      simp [insertIn, hn, h]
    · simp only [findIn, hn] at h
      simp [insertIn, hn, ih h]

theorem modify_eq_map (t : Table β) (k : String) (f : β → β) :
    t.modify k f = t.map fun n b => if n = k then f b else b := by
  simp only [modify, map]
  congr 2
  funext e
  split <;> rfl

@[simp] theorem find?_modify (t : Table β) (k k' : String) (f : β → β) :
    (t.modify k f).find? k' = if k = k' then (t.find? k').map f else t.find? k' := by
  rw [modify_eq_map, find?_map]
  by_cases h : k = k' <;> simp [h, eq_comm]

theorem findIn_erase (k k' : String) (es : List (String × β)) :
    findIn k' (es.filter fun e => e.1 ≠ k) = if k = k' then none else findIn k' es := by
  induction es with
  | nil => simp [findIn]
  | cons e r ih =>
    obtain ⟨n, c⟩ := e
    by_cases hn : n = k
    · subst hn
      by_cases hk : n = k' <;> simpa [findIn, hk] using ih
    · by_cases hk : n = k'
      · subst hk
        simp [findIn, hn, Ne.symm hn]
      · simpa [findIn, hn, hk] using ih

@[simp] theorem find?_erase (t : Table β) (k k' : String) :
    (t.erase k).find? k' = if k = k' then none else t.find? k' :=
  findIn_erase k k' t.entries

@[simp] theorem findD_insert (t : Table β) (k k' : String) (b d : β) :
    (t.insert k b).findD k' d = if k = k' then b else t.findD k' d := by
  simp only [findD, find?_insert]
  split <;> rfl

/-! ## Names -/

@[simp] theorem keys_modify (t : Table β) (k : String) (f : β → β) : (t.modify k f).keys = t.keys := by
  simp only [keys, modify, map_map]
  apply map_congr_left
  intro e _
  simp only [Function.comp_apply]
  split <;> rfl

theorem mem_keys_iff : k ∈ t.keys ↔ ∃ b, t.find? k = some b := by
  rw [← contains_iff, contains, Option.isSome_iff_exists]

theorem find?_eq_none_iff : t.find? k = none ↔ k ∉ t.keys := by
  rw [mem_keys_iff]
  cases t.find? k <;> simp

theorem mem_keys_of_find? (h : t.find? k = some b) : k ∈ t.keys :=
  mem_keys_iff.mpr ⟨b, h⟩

theorem mem_keys_insert {k k' : String} : k' ∈ (t.insert k b).keys ↔ k' = k ∨ k' ∈ t.keys := by
  rw [keys_insert]
  by_cases h : k ∈ t.keys
  · rw [if_pos h]
    exact ⟨.inr, fun h' => h'.elim (fun e => e ▸ h) id⟩
  · simp [h, or_comm]

theorem nodup_keys_insert (h : t.keys.Nodup) (k : String) (b : β) : (t.insert k b).keys.Nodup := by
  rw [keys_insert]
  by_cases hk : k ∈ t.keys
  · rwa [if_pos hk]
  · rw [if_neg hk, nodup_append]
    refine ⟨h, nodup_singleton k, fun x hx y hy e => hk ?_⟩
    rw [mem_singleton] at hy
    rwa [← hy, ← e]

theorem nodup_keys_filter (h : t.keys.Nodup) (p : String → β → Bool) : (t.filter p).keys.Nodup :=
  h.sublist (filter_sublist.map _)

/-! ## Tables with distinct names -/

theorem findIn_eq_some_iff (h : (es.map (·.1)).Nodup) : findIn k es = some b ↔ (k, b) ∈ es := by
  induction es with
  | nil => simp [findIn]
  | cons e r ih =>
    obtain ⟨n, c⟩ := e
    rw [map_cons, nodup_cons] at h
    simp only [findIn]
    by_cases hn : n = k
    · subst hn
      have hnot : (n, b) ∉ r := fun hm => h.1 (mem_map.mpr ⟨_, hm, rfl⟩)
      simp [hnot, eq_comm]
    · simp [hn, Ne.symm hn, ih h.2]

theorem find?_eq_some_iff (h : t.keys.Nodup) : t.find? k = some b ↔ (k, b) ∈ t.entries :=
  findIn_eq_some_iff h

/-- With distinct names, a filter keeps the value under a name if it passes the test. -/
theorem find?_filter (h : t.keys.Nodup) (p : String → β → Bool) (k : String) :
    (t.filter p).find? k = (t.find? k).filter (p k) := by
  ext b
  rw [find?_eq_some_iff (nodup_keys_filter h p), Option.filter_eq_some_iff, find?_eq_some_iff h]
  simp [filter]

/-! ## Many writes -/

theorem findIn_append (k : String) (es fs : List (String × β)) :
    findIn k (es ++ fs) = (findIn k es).or (findIn k fs) := by
  induction es with
  | nil => simp [findIn]
  | cons e r ih =>
    obtain ⟨n, c⟩ := e
    by_cases h : n = k <;> simp [findIn, h, ih]

theorem mem_of_findIn (h : findIn k es = some b) : (k, b) ∈ es := by
  induction es with
  | nil => cases h
  | cons e r ih =>
    obtain ⟨n, c⟩ := e
    by_cases hn : n = k
    · simp only [findIn, hn, ite_true, Option.some.injEq] at h
      simp [hn, h]
    · simp only [findIn, hn] at h
      exact .tail _ (ih h)

theorem find?_insertAll (t : Table β) (es : List (String × β)) (k : String) :
    (t.insertAll es).find? k = (findIn k es.reverse).or (t.find? k) := by
  induction es generalizing t with
  | nil => simp [insertAll, findIn]
  | cons e r ih =>
    obtain ⟨n, c⟩ := e
    rw [insertAll, foldl_cons, ← insertAll, ih, reverse_cons, findIn_append]
    by_cases h : n = k <;> simp [findIn, h]

theorem find?_ofList (es : List (String × β)) (k : String) : (ofList es).find? k = findIn k es.reverse := by
  rw [ofList, find?_insertAll, find?_empty, Option.or_none]

theorem mem_keys_ofList : k ∈ (ofList es).keys ↔ k ∈ es.map (·.1) := by
  rw [← contains_iff, contains, find?_ofList, findIn_isSome_iff, map_reverse, mem_reverse]

theorem nodup_keys_ofList (es : List (String × β)) : (ofList es).keys.Nodup := by
  suffices h : ∀ t : Table β, t.keys.Nodup → (t.insertAll es).keys.Nodup from h ∅ nodup_nil
  induction es with
  | nil => exact fun t ht => ht
  | cons e r ih => exact fun t ht => ih _ (nodup_keys_insert ht e.1 e.2)

theorem mem_of_mem_ofList {e : String × β} (h : e ∈ (ofList es).entries) : e ∈ es := by
  rw [← find?_eq_some_iff (nodup_keys_ofList es), find?_ofList] at h
  exact mem_reverse.mp (mem_of_findIn h)

theorem insertIn_append (h : k ∉ es.map (·.1)) (fs : List (String × β)) :
    insertIn k b (es ++ fs) = es ++ insertIn k b fs := by
  induction es with
  | nil => rfl
  | cons e r ih =>
    simp only [map_cons, mem_cons, not_or] at h
    simp [insertIn, Ne.symm h.1, ih h.2]

theorem insertIn_of_not_mem (h : k ∉ es.map (·.1)) : insertIn k b es = es ++ [(k, b)] := by
  simpa [insertIn] using insertIn_append h []

theorem entries_insertAll (h : (t.keys ++ es.map (·.1)).Nodup) : (t.insertAll es).entries = t.entries ++ es := by
  induction es generalizing t with
  | nil => simp [insertAll]
  | cons e r ih =>
    obtain ⟨n, c⟩ := e
    have hnew : n ∉ t.keys := fun hn => (nodup_append.mp h).2.2 n hn n (by simp) rfl
    have hentries : (t.insert n c).entries = t.entries ++ [(n, c)] := insertIn_of_not_mem hnew
    have hkeys : (t.insert n c).keys = t.keys ++ [n] := by rw [keys_insert, if_neg hnew]
    rw [insertAll, foldl_cons, ← insertAll, ih (by rw [hkeys]; simpa using h), hentries, append_assoc,
      singleton_append]

theorem entries_ofList (h : (es.map (·.1)).Nodup) : (ofList es).entries = es := entries_insertAll h

end NetBridge.Table
