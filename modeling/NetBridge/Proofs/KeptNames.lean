import NetBridge.Prototxt.Build
import NetBridge.Proofs.RunSteps
import Mathlib.Data.List.Nodup
import Mathlib.Data.List.Perm.Subperm

/-!
# Names of the kept layers

A kept layer whose name is taken gets the first free numbered form of it. The search stops one number too early, and
only then two kept layers come to share a name.
-/

namespace NetBridge.Prototxt

open List

def numberedForms (name : String) (count : Nat) : List String :=
  (List.range count).map fun i => name ++ "_" ++ toString (i + 1)

def UsedUp (taken : List String) (name : String) : Prop := taken.Perm (name :: numberedForms name (taken.length - 1))

theorem nodup_numberedForms (name : String) (count : Nat) : (name :: numberedForms name count).Nodup := by
  refine nodup_cons.mpr ⟨fun h => ?_, nodup_range.map fun i j h => ?_⟩
  · obtain ⟨i, -, hi⟩ := mem_map.mp h
    have hlength := congrArg String.length hi
    simp [show "_".length = 1 from rfl] at hlength
    omega
  · have hdigits : Nat.toDigits 10 (i + 1) = Nat.toDigits 10 (j + 1) := by simpa using congrArg String.toList h
    simpa using congrArg (Nat.ofDigitChars 10 · 0) hdigits

section
variable {taken : List String} {name : String}

theorem freshName_of_not_mem (h : name ∉ taken) : freshName taken name = name := by
  rw [freshName, if_neg (by simpa using h)]

theorem freshName_mem_iff : freshName taken name ∈ taken ↔ UsedUp taken name := by
  by_cases hname : name ∈ taken
  · have hpos : taken.length - 1 + 1 = taken.length := Nat.sub_add_cancel (length_pos_of_mem hname)
    rw [freshName, if_pos (by simpa using hname)]
    change ((numberedForms name (taken.length - 1)).find? fun n => !taken.contains n).getD name ∈ taken ↔ _
    cases hfind : (numberedForms name (taken.length - 1)).find? fun n => !taken.contains n with
    | some n =>
      have hfree : n ∉ taken := by simpa using find?_some hfind
      exact iff_of_false hfree fun h => hfree (h.mem_iff.mpr (.tail _ (mem_of_find?_eq_some hfind)))
    | none =>
      have hused : name :: numberedForms name (taken.length - 1) ⊆ taken :=
        cons_subset.mpr ⟨hname, fun n hn => by simpa using find?_eq_none.mp hfind n hn⟩
      refine iff_of_true hname (List.Subperm.perm_of_length_le ?_ ?_).symm
      · exact subperm_of_subset (nodup_numberedForms name _) hused
      · simp [numberedForms, hpos]
  · rw [freshName_of_not_mem hname]
    exact iff_of_false hname fun h => hname (h.mem_iff.mpr (.head _))

/-- What becomes of the chosen layers, given the names that are taken before. -/
structure Named (taken : List String) (chosen kept : List LayerSpec) : Prop where
  same : List.Forall₂ (fun l k => k = { l with name := k.name }) chosen kept
  renamed : ∀ i l k, chosen[i]? = some l → kept[i]? = some k → k.name ≠ l.name →
    l.name ∈ taken ++ (kept.take i).map (·.name)
  distinct : (taken ++ kept.map (·.name)).Nodup ↔
    ∀ i l, chosen[i]? = some l → ¬UsedUp (taken ++ (kept.take i).map (·.name)) l.name

theorem Named.cons {l : LayerSpec} {chosen kept : List LayerSpec}
    (h : Named (if taken.contains (freshName taken l.name) then taken else taken ++ [freshName taken l.name])
    chosen kept) :
    Named taken (l :: chosen) ({ l with name := freshName taken l.name } :: kept) := by
  have hlater (n : String) (i : Nat) : n ∈ (if taken.contains (freshName taken l.name) then taken
      else taken ++ [freshName taken l.name]) ++ (kept.take i).map (·.name) →
      n ∈ taken ++ freshName taken l.name :: (kept.take i).map (·.name) := by
    split <;> (simp only [mem_append, mem_cons]; tauto)
  refine ⟨.cons rfl h.same, fun i w k hw hk hne => ?_, ?_⟩
  · cases i with
    | zero =>
      cases hw
      cases hk
      by_contra hnot
      exact hne (freshName_of_not_mem (by simpa using hnot))
    | succ i => simpa using hlater _ i (h.renamed i w k hw hk hne)
  · by_cases hmem : freshName taken l.name ∈ taken
    · refine iff_of_false (fun hnodup => ?_) fun hall => hall 0 l rfl (by simpa using freshName_mem_iff.mp hmem)
      exact (nodup_append.mp hnodup).2.2 _ hmem _ (by simp) rfl
    · have hdistinct := h.distinct
      rw [if_neg (by simpa using hmem)] at hdistinct
      simp only [append_assoc, singleton_append] at hdistinct
      rw [map_cons, hdistinct]
      constructor
      · intro hall i w hw
        cases i with
        | zero =>
          cases hw
          simpa using mt freshName_mem_iff.mpr hmem
        | succ i => exact hall i w hw
      · exact fun hall i w hw => hall (i + 1) w hw

end

def chosenLayers (phase : String) (ls : List LayerSpec) : List LayerSpec :=
  ls.filter fun l => (isKept phase l).toOption == some true

theorem keptLayers_named {phase : String} {ls kept : List LayerSpec} {taken : List String} (htaken : taken.Nodup)
    (h : keptLayers phase taken ls = .ok kept) : Named taken (chosenLayers phase ls) kept := by
  induction ls generalizing taken kept with
  | nil =>
    cases h
    exact ⟨.nil, by simp [chosenLayers], by simpa [chosenLayers] using htaken⟩
  | cons l ls ih =>
    obtain ⟨b, hb, h⟩ := bind_cases h
    rw [chosenLayers, filter_cons, hb]
    cases b with
    | true =>
      obtain ⟨rest, hrest, ⟨⟩⟩ := bind_cases h
      refine (ih ?_ hrest).cons
      split
      · exact htaken
      · rename_i hnew
        exact htaken.append (nodup_singleton _) (by simpa using hnew)
    | false => exact ih htaken h

/-- Layers are kept in order and get a new name only if theirs is taken. The names are different exactly if no layer
comes behind its own name and numbered forms of it alone. -/
theorem kept_names_distinct_iff {phase : String} {ls kept : List LayerSpec} (h : keptLayers phase [] ls = .ok kept) :
    List.Forall₂ (fun l k => k = { l with name := k.name }) (chosenLayers phase ls) kept ∧
      (∀ i l k, (chosenLayers phase ls)[i]? = some l → kept[i]? = some k → k.name ≠ l.name →
        l.name ∈ (kept.take i).map (·.name)) ∧
      ((kept.map (·.name)).Nodup ↔
        ∀ i l, (chosenLayers phase ls)[i]? = some l → ¬UsedUp ((kept.take i).map (·.name)) l.name) := by
  have hnamed := keptLayers_named nodup_nil h
  exact ⟨hnamed.same, hnamed.renamed, hnamed.distinct⟩

def rectifiers (names : List String) : List LayerSpec := names.map fun n => { name := n, type := .named "ReLU" }

theorem kept_names_distinct_iff_numbered : ∃ kept, keptLayers "test" [] (rectifiers ["a", "b", "a"]) = .ok kept ∧
    kept.map (·.name) = ["a", "b", "a_1"] ∧
    ∀ i l, (chosenLayers "test" (rectifiers ["a", "b", "a"]))[i]? = some l →
      ¬UsedUp ((kept.take i).map (·.name)) l.name := by
  obtain ⟨kept, h, hnames⟩ : ∃ kept, keptLayers "test" [] (rectifiers ["a", "b", "a"]) = .ok kept ∧
    kept.map (·.name) = ["a", "b", "a_1"] := ⟨_, rfl, rfl⟩
  exact ⟨kept, h, hnames, (kept_names_distinct_iff h).2.2.mp (by rw [hnames]; decide)⟩

theorem name_kept_twice : ∃ kept, keptLayers "test" [] (rectifiers ["a", "a"]) = .ok kept ∧
    kept.map (·.name) = ["a", "a"] :=
  ⟨_, rfl, rfl⟩

end NetBridge.Prototxt
