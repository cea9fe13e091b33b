import NetBridge.Prototxt.Arrays
import Mathlib.Data.List.Basic
import Mathlib.Data.List.Induction

/-!
# The order of operands under merges

When a node is merged into its parent, its readers drop it and read the parent last. So the old order of operands
survives exactly if they were listed in the order of their last moves (`foldl_redirect_eq_map_iff`).
-/

namespace NetBridge.Prototxt

open List

structure Merge where
  node : Nat
  parent : Nat
  output : Int
  deriving DecidableEq, Repr

namespace Merge

def apply (m : Merge) (e : Nat × Int) : Nat × Int := if e.1 = m.node then (m.parent, m.output) else e

def redirect (m : Merge) (ps : List (Nat × Int)) : List (Nat × Int) :=
  if ps.any (·.1 = m.node) then ps.filter (·.1 ≠ m.node) ++ [(m.parent, m.output)] else ps

def follow : List Merge → Nat × Int → Nat × Int
  | [], e => e
  | m :: ms, e => follow ms (m.apply e)

/-- The number of the last merge that moves an operand, from one; zero if none does. -/
def lastMove : List Merge → Nat × Int → Nat
  | [], _ => 0
  | m :: ms, e =>
    match lastMove ms (m.apply e) with
    | 0 => if e.1 = m.node then 1 else 0
    | k + 1 => k + 2

def settled (ms : List Merge) (ps : List (Nat × Int)) : List (Nat × Int) :=
  ps.filter (lastMove ms · = 0) ++ (List.range ms.length).filterMap fun k => ps.find? (lastMove ms · = k + 1)

def InOrder (ms : List Merge) (ps : List (Nat × Int)) : Prop :=
  ps.Pairwise fun a b => lastMove ms a = 0 ∨ lastMove ms a < lastMove ms b

instance (ms : List Merge) (ps : List (Nat × Int)) : Decidable (InOrder ms ps) :=
  inferInstanceAs (Decidable (ps.Pairwise _))

def Apart (ms : List Merge) (ps : List (Nat × Int)) : Prop :=
  ∀ a ∈ ps, ∀ b ∈ ps, lastMove ms a ≠ 0 → (follow ms a).1 = (follow ms b).1 → lastMove ms a = lastMove ms b

section
variable {ms : List Merge} {m : Merge} {ps : List (Nat × Int)} {e : Nat × Int}

@[simp] theorem follow_concat (ms : List Merge) (m : Merge) (e : Nat × Int) :
    follow (ms ++ [m]) e = m.apply (follow ms e) := by
  induction ms generalizing e with
  | nil => rfl
  | cons m' ms ih => exact ih _

@[simp] theorem lastMove_concat (ms : List Merge) (m : Merge) (e : Nat × Int) :
    lastMove (ms ++ [m]) e = if (follow ms e).1 = m.node then ms.length + 1 else lastMove ms e := by
  induction ms generalizing e with
  | nil => rfl
  | cons m' ms ih =>
    rw [cons_append, lastMove, ih, follow, lastMove]
    by_cases h : (follow ms (m'.apply e)).1 = m.node <;> simp [h]

theorem lastMove_le (ms : List Merge) (e : Nat × Int) : lastMove ms e ≤ ms.length := by
  induction ms using reverseRecOn with
  | nil => exact Nat.le_refl _
  | append_singleton ms m ih =>
    rw [lastMove_concat, length_append, length_singleton]
    split <;> omega

theorem follow_eq {a b : Nat × Int} (ha : lastMove ms a ≠ 0) (h : lastMove ms a = lastMove ms b) :
    follow ms a = follow ms b := by
  induction ms using reverseRecOn with
  | nil => exact absurd rfl ha
  | append_singleton ms m ih =>
    have hle := lastMove_le ms
    rw [lastMove_concat] at ha
    rw [lastMove_concat, lastMove_concat] at h
    rw [follow_concat, follow_concat]
    by_cases ha' : (follow ms a).1 = m.node <;> by_cases hb' : (follow ms b).1 = m.node
    · rw [apply, apply, if_pos ha', if_pos hb']
    · rw [if_pos ha', if_neg hb'] at h
      exact absurd (hle b) (by omega)
    · rw [if_neg ha', if_pos hb'] at h
      exact absurd (hle a) (by omega)
    · rw [if_neg ha', if_neg hb'] at h
      rw [if_neg ha'] at ha
      rw [ih ha h]

theorem mem_of_mem_settled (h : e ∈ settled ms ps) : e ∈ ps := by
  rcases mem_append.mp h with h | h
  · exact mem_of_mem_filter h
  · obtain ⟨k, -, hk⟩ := mem_filterMap.mp h
    exact mem_of_find?_eq_some hk

/-- Every operand is there in the end, though not every time that it was listed. -/
theorem follow_mem_settled (ms : List Merge) (h : e ∈ ps) : ∃ a ∈ settled ms ps, follow ms a = follow ms e := by
  by_cases h0 : lastMove ms e = 0
  · exact ⟨e, mem_append_left _ (mem_filter.mpr ⟨h, by simpa using h0⟩), rfl⟩
  · obtain ⟨k, hk⟩ := Nat.exists_eq_succ_of_ne_zero h0
    have hlt : k < ms.length := by
      have := lastMove_le ms e
      omega
    have hsome : (ps.find? (lastMove ms · = k + 1)).isSome :=
      find?_isSome.mpr ⟨e, h, by simpa using hk⟩
    obtain ⟨a, ha⟩ := Option.isSome_iff_exists.mp hsome
    have hak : lastMove ms a = k + 1 := by simpa using find?_some ha
    refine ⟨a, mem_append_right _ (mem_filterMap.mpr ⟨k, mem_range.mpr hlt, ha⟩), ?_⟩
    exact follow_eq (by omega) (hak.trans hk.symm)

variable {α : Type}

theorem filter_find? {p q : α → Bool} {l : List α} (h : ∀ a ∈ l, ∀ b ∈ l, p a = true → p b = true → q a = q b) :
    (l.find? p).filter q = l.find? fun a => p a && q a := by
  induction l with
  | nil => rfl
  | cons a l ih =>
    have ih := ih fun b hb c hc => h b (.tail _ hb) c (.tail _ hc)
    cases hp : p a with
    | false => simp [hp, ih]
    | true =>
      cases hq : q a with
      | true => simp [hp, hq]
      | false =>
        have hnone : l.find? (fun b => p b && q b) = none := by
          refine find?_eq_none.mpr fun b hb hpq => ?_
          rw [Bool.and_eq_true] at hpq
          rw [h a (.head _) b (.tail _ hb) hp hpq.1, hpq.2] at hq
          cases hq
        simp [hp, hq, hnone]

theorem settled_concat (ms : List Merge) (m : Merge) (ps : List (Nat × Int)) :
    settled (ms ++ [m]) ps = (settled ms ps).filter (fun e => (follow ms e).1 ≠ m.node) ++
      (ps.find? fun e => (follow ms e).1 = m.node).toList := by
  have hlast : ps.find? (lastMove (ms ++ [m]) · = ms.length + 1) = ps.find? fun e => (follow ms e).1 = m.node := by
    congr 1
    funext e
    have := lastMove_le ms e
    by_cases h : (follow ms e).1 = m.node <;> simp [h]
    omega
  have hmid : ∀ k < ms.length, ps.find? (lastMove (ms ++ [m]) · = k + 1) =
      (ps.find? (lastMove ms · = k + 1)).filter fun e => (follow ms e).1 ≠ m.node := by
    intro k hk
    rw [filter_find?]
    · congr 1
      funext e
      by_cases h : (follow ms e).1 = m.node <;> simp [h]
      omega
    · intro a _ b _ ha hb
      simp only [decide_eq_true_eq] at ha hb
      rw [follow_eq (by omega) (ha.trans hb.symm)]
  rw [settled, settled, length_append, length_singleton, range_succ, filterMap_append,
    filter_append, append_assoc]
  congr 1
  · rw [filter_filter]
    refine filter_congr fun e _ => ?_
    by_cases h : (follow ms e).1 = m.node <;> simp [h]
  · congr 1
    · rw [filter_filterMap]
      exact filterMap_congr fun k hk => hmid k (mem_range.mp hk)
    · rw [filterMap_cons, hlast]
      cases ps.find? fun e => (follow ms e).1 = m.node <;> rfl

theorem foldl_redirect (ms : List Merge) (ps : List (Nat × Int)) :
    ms.foldl (fun ps m => m.redirect ps) ps = (settled ms ps).map (follow ms) := by
  induction ms using reverseRecOn with
  | nil => simp [settled, lastMove, follow]
  | append_singleton ms m ih =>
    rw [foldl_append, foldl_cons, ih, settled_concat, map_append]
    have hkept : ((settled ms ps).filter fun e => (follow ms e).1 ≠ m.node).map (follow (ms ++ [m])) =
        ((settled ms ps).map (follow ms)).filter (·.1 ≠ m.node) := by
      rw [filter_map]
      refine map_congr_left fun e he => ?_
      rw [follow_concat, apply, if_neg (by simpa using (mem_filter.mp he).2)]
    rw [hkept, redirect]
    cases hfind : ps.find? fun e => (follow ms e).1 = m.node with
    | none =>
      have hno : ∀ x ∈ (settled ms ps).map (follow ms), x.1 ≠ m.node := by
        intro x hx
        obtain ⟨e, he, rfl⟩ := mem_map.mp hx
        simpa using find?_eq_none.mp hfind e (mem_of_mem_settled he)
      have hany : ((settled ms ps).map (follow ms)).any (·.1 = m.node) = false := by
        rw [any_eq_false]
        simpa using hno
      rw [hany, filter_eq_self.mpr (by simpa using hno)]
      simp
    | some e =>
      have he : (follow ms e).1 = m.node := by simpa using find?_some hfind
      obtain ⟨a, ha, hae⟩ := follow_mem_settled ms (mem_of_find?_eq_some hfind)
      have hany : ((settled ms ps).map (follow ms)).any (·.1 = m.node) = true := by
        rw [any_eq_true]
        exact ⟨follow ms a, mem_map_of_mem ha, by simpa [hae] using he⟩
      rw [hany]
      simp [apply, he]

theorem inOrder_settled (ms : List Merge) (ps : List (Nat × Int)) : InOrder ms (settled ms ps) := by
  rw [InOrder, settled, pairwise_append]
  refine ⟨?_, ?_, ?_⟩
  · refine pairwise_iff_forall_sublist.mpr fun {a b} hsub => .inl ?_
    simpa using (mem_filter.mp (hsub.subset (.head _))).2
  · rw [pairwise_filterMap]
    refine pairwise_lt_range.imp fun hlt a ha b hb => .inr ?_
    have ha := find?_some ha
    have hb := find?_some hb
    simp only [decide_eq_true_eq] at ha hb
    omega
  · exact fun a ha b _ => .inl (by simpa using (mem_filter.mp ha).2)

theorem filterMap_range {f : Nat → Option α} {r n : Nat} (hr : r < n) (hf : ∀ k < r, f k = none) :
    (range n).filterMap f = (f r).toList ++ (range (n - (r + 1))).filterMap fun k => f (r + 1 + k) := by
  have hnil : (range r).filterMap f = [] :=
    filterMap_eq_nil_iff.mpr fun k hk => hf k (mem_range.mp hk)
  obtain ⟨d, rfl⟩ : ∃ d, n = r + 1 + d := ⟨n - (r + 1), by omega⟩
  rw [range_add, filterMap_append, range_succ, filterMap_append, hnil, filterMap_map,
    Nat.add_sub_cancel_left, filterMap_cons]
  cases f r <;> rfl

theorem settled_of_inOrder (h : InOrder ms ps) : settled ms ps = ps := by
  induction ps with
  | nil => simp [settled]
  | cons e ps ih =>
    obtain ⟨hfirst, hrest⟩ := pairwise_cons.mp h
    have ih := ih hrest
    cases hk : lastMove ms e with
    | zero =>
      rw [settled] at ih ⊢
      simp only [filter_cons, hk, find?_cons]
      simp [ih]
    | succ r =>
      -- all that follows moves later, so nothing stands before the operand
      have hlater : ∀ b ∈ ps, r + 1 < lastMove ms b := fun b hb => by
        have := hfirst b hb
        omega
      have hnone : ps.filter (lastMove ms · = 0) = [] := filter_eq_nil_iff.mpr fun b hb => by
        have := hlater b hb
        simp
        omega
      have hbefore : ∀ k ≤ r, ps.find? (lastMove ms · = k + 1) = none := fun k hle =>
        find?_eq_none.mpr fun b hb => by
          have := hlater b hb
          simp
          omega
      have hlt : r < ms.length := by
        have := lastMove_le ms e
        omega
      have hother : ∀ k, k ≠ r → (e :: ps).find? (lastMove ms · = k + 1) = ps.find? (lastMove ms · = k + 1) :=
        fun k hne => find?_cons_of_neg (by simp; omega)
      rw [settled, hnone, filterMap_range hlt fun k hk => hbefore k (Nat.le_of_lt hk), hbefore r (Nat.le_refl r)] at ih
      rw [settled, filter_cons_of_neg (by simp [hk]), hnone, filterMap_range hlt fun k hk => by
        rw [hother k (Nat.ne_of_lt hk), hbefore k (Nat.le_of_lt hk)]]
      rw [find?_cons_of_pos (by simpa using hk)]
      conv => rhs; rw [← ih]
      simp only [Option.toList, nil_append, singleton_append, cons.injEq, true_and]
      exact filterMap_congr fun k _ => hother (r + 1 + k) (by omega)

theorem foldl_redirect_eq_map_iff (h : Apart ms ps) :
    ms.foldl (fun ps m => m.redirect ps) ps = ps.map (follow ms) ↔ InOrder ms ps := by
  rw [foldl_redirect]
  constructor
  · intro he
    have hlen : (settled ms ps).length = ps.length := by simpa using congrArg length he
    have hmoves : (settled ms ps).map (lastMove ms) = ps.map (lastMove ms) := by
      refine ext_getElem (by simpa using hlen) fun k hk hk' => ?_
      rw [length_map] at hk hk'
      have hsame : follow ms (settled ms ps)[k] = follow ms ps[k] := by
        have hat := getElem_of_eq he (by simpa using hk)
        rwa [getElem_map, getElem_map] at hat
      have ha := mem_of_mem_settled (getElem_mem hk)
      have hb := getElem_mem hk'
      rw [getElem_map, getElem_map]
      by_cases h0 : lastMove ms (settled ms ps)[k] = 0
      · by_cases h1 : lastMove ms ps[k] = 0
        · rw [h0, h1]
        · exact (h _ hb _ ha h1 (congrArg _ hsame.symm)).symm
      · exact h _ ha _ hb h0 (congrArg _ hsame)
    have hin := inOrder_settled ms ps
    rw [InOrder, ← pairwise_map (R := fun a b => a = 0 ∨ a < b), hmoves,
      pairwise_map] at hin
    exact hin
  · intro hin
    rw [settled_of_inOrder hin]

end

end Merge

end NetBridge.Prototxt
