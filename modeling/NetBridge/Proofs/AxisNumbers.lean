import NetBridge.Source.MxNet
import Mathlib.Tactic.Common

/-!
# Axis numbers

Carried over to the layout with the channels last, axis numbers that count from the front name the same axis again;
those that count from the end are all moved by one, and some are lost (`carried_axis_iff`).
-/

namespace NetBridge

variable {k n : Nat}

namespace Value

variable {α : Type}

variable {i : Int}

theorem emod_of_range (hlow : -n ≤ i) (hhigh : i < n) : i % n = if i < 0 then i + n else i := by
  split
  · rw [← Int.add_emod_right]
    exact Int.emod_eq_of_lt (by omega) (by omega)
  · exact Int.emod_eq_of_lt (by omega) hhigh

theorem nth_of_range {xs : List α} {x : α} (hlow : -xs.length ≤ i) (hhigh : i < xs.length)
    (hx : xs[(i % xs.length).toNat]? = some x) : nth xs i = .ok x := by
  have hin : 0 ≤ (if i < 0 then i + xs.length else i) ∧ (if i < 0 then i + xs.length else i) < xs.length := by
    split <;> omega
  have hplace : place xs.length i = some (i % xs.length).toNat := by
    rw [emod_of_range hlow hhigh]
    simp [place, hin]
  rw [nth, hplace, Option.bind_some, hx]

theorem nth_zero (x : α) (xs : List α) : nth (x :: xs) 0 = .ok x :=
  nth_of_range (by omega) (by simp) (by simp)

theorem nth_back (xs : List α) (x : α) (ys : List α) : nth (xs ++ x :: ys) (-(ys.length + 1)) = .ok x := by
  have hlen : (xs ++ x :: ys).length = xs.length + (ys.length + 1) := by simp
  refine nth_of_range (by omega) (by omega) ?_
  have hplace : (-(ys.length + 1 : Int) % (xs ++ x :: ys).length).toNat = xs.length := by
    rw [emod_of_range (by omega) (by omega)]
    omega
  rw [hplace]
  simp

end Value

namespace Axes

open Source.MxNet (axisOf)

/-! ## Places -/

def lastPlace (n k : Nat) : Nat := if k = 0 then 0 else if k = 1 then n - 1 else k - 1

def secondPlace (n k : Nat) : Nat := if k = 0 then 0 else if k = n - 1 then 1 else k + 1

theorem secondPlace_lt (hn : 2 ≤ n) (hk : k < n) : secondPlace n k < n := by
  unfold secondPlace
  split_ifs <;> omega

theorem lastPlace_lt (hk : k < n) : lastPlace n k < n := by
  unfold lastPlace
  split_ifs <;> omega

theorem lastPlace_secondPlace (hn : 2 ≤ n) : lastPlace n (secondPlace n k) = k := by
  by_cases h0 : k = 0
  · simp [h0, secondPlace, lastPlace]
  · by_cases hlast : k = n - 1
    · have h1 : n - 1 ≠ 0 := by omega
      simp [secondPlace, lastPlace, hlast, h1]
    · simp [secondPlace, lastPlace, h0, hlast]

theorem secondPlace_lastPlace (hk : k < n) : secondPlace n (lastPlace n k) = k := by
  by_cases h0 : k = 0
  · simp [h0, secondPlace, lastPlace]
  · by_cases h1 : k = 1
    · have hn : n - 1 ≠ 0 := by omega
      simp [secondPlace, lastPlace, h1, hn]
    · have hlast : ¬k - 1 = n - 1 := by omega
      have hfirst : ¬k - 1 = 0 := by omega
      simp only [secondPlace, lastPlace, h0, h1, hlast, hfirst, ite_false]
      omega

variable {α : Type} {s r : List α}

theorem exists_channelsLast (h : 2 ≤ s.length) : ∃ r, channelsLast s = .ok r := by
  match s, h with
  | _ :: _ :: _, _ => exact ⟨_, rfl⟩

theorem channelsLast_eq_ok (h : channelsLast s = .ok r) : ∃ x y ds, s = x :: y :: ds ∧ r = x :: ds ++ [y] := by
  rcases s with _ | ⟨x, _ | ⟨y, ds⟩⟩
  · cases h
  · cases h
  · exact ⟨x, y, ds, rfl, (Except.ok.inj h).symm⟩

theorem getElem?_channelsLast (h : channelsLast s = .ok r) (hk : k < s.length) :
    r.length = s.length ∧ r[lastPlace s.length k]? = s[k]? := by
  obtain ⟨x, c, ds, rfl, rfl⟩ := channelsLast_eq_ok h
  refine ⟨by simp, ?_⟩
  match k with
  | 0 => rfl
  | 1 => simp [lastPlace]
  | k + 2 =>
    have hk : k < ds.length := by simpa using hk
    simp [lastPlace, List.getElem?_append_left hk]

/-! ## Numbers from the front -/

theorem firstAxis_front : firstAxis n k = secondPlace n k := by
  unfold firstAxis secondPlace
  split_ifs <;> omega

section
variable {n k : Nat} (hn : 2 ≤ n)
include hn

theorem axisOf_front : axisOf n k = lastPlace n k := by
  unfold axisOf lastPlace
  split_ifs <;> omega

theorem firstAxis_axisOf (hk : k < n) : firstAxis n (axisOf n k) = k := by
  rw [axisOf_front hn, firstAxis_front, secondPlace_lastPlace hk]

theorem lastAxis_range (hk : k < n) : -(n : Int) ≤ lastAxis k ∧ lastAxis k < n := by
  unfold lastAxis
  split_ifs <;> omega

theorem lastAxis_emod (hk : k < n) : lastAxis k % n = lastPlace n k := by
  obtain ⟨hlow, hhigh⟩ := lastAxis_range hn hk
  rw [Value.emod_of_range hlow hhigh]
  unfold lastAxis lastPlace
  split_ifs <;> omega

end

section
variable {α : Type} {s r : List α} (hr : channelsLast s = .ok r) (hs : 2 ≤ s.length) {a : Nat} (ha : a < s.length)
include hr hs

theorem nth_axisOf : Value.nth r (axisOf s.length a) = .ok s[a] := by
  obtain ⟨hlen, hplace⟩ := getElem?_channelsLast hr ha
  have hlt := lastPlace_lt ha
  rw [axisOf_front hs]
  refine Value.nth_of_range (by omega) (by omega) ?_
  rw [Int.emod_eq_of_lt (by omega) (by omega), Int.toNat_natCast, hplace, List.getElem?_eq_getElem ha]

theorem nth_lastAxis : Value.nth r (lastAxis a) = .ok s[a] := by
  obtain ⟨hlen, hplace⟩ := getElem?_channelsLast hr ha
  obtain ⟨hlow, hhigh⟩ := lastAxis_range hs ha
  refine Value.nth_of_range (hlen ▸ hlow) (hlen ▸ hhigh) ?_
  rw [hlen, lastAxis_emod hs ha, Int.toNat_natCast, hplace, List.getElem?_eq_getElem ha]

end

/-! ## Numbers from the end -/

section
variable {n k : Nat} (hn : 3 ≤ n) (hk : k < n)
include hk

theorem firstAxis_back : firstAxis n (k - n) = k - n + 1 := by
  unfold firstAxis
  split_ifs <;> omega

theorem axisOf_back : axisOf n (k - n) = k - n - 1 := by
  unfold axisOf
  split_ifs <;> omega

include hn

theorem firstAxis_back_iff : firstAxis n (k - n) % n = secondPlace n k ↔ k ≠ 0 ∧ k ≠ n - 1 := by
  rw [firstAxis_back hk, Value.emod_of_range (by omega) (by omega)]
  unfold secondPlace
  split_ifs <;> omega

theorem axisOf_back_iff : axisOf n (k - n) % n = lastPlace n k ↔ k ≠ 0 ∧ k ≠ 1 := by
  -- the number of the first axis leaves the range, so a whole round is added first
  rw [axisOf_back hk, ← Int.add_emod_right, Value.emod_of_range (by omega) (by omega)]
  unfold lastPlace
  split_ifs <;> omega

end

end Axes

/-- With `order` listing, for each place with the channels last, the axis with the channels second that is there:
`p` and `q` are where the axis `a` has to go in the two directions. -/
theorem carried_axis_iff {n : Nat} (hn : 3 ≤ n) {a : Int} (hlow : -n ≤ a) (hhigh : a < n) :
    ∃ (order : List Nat) (p q : Nat), Axes.channelsLast (List.range n) = .ok order ∧
      Value.nth order a = .ok p ∧ order[q]? = some (a % n).toNat ∧
      (Axes.firstAxis n a % n = p ↔ a ≠ -1 ∧ a ≠ -n) ∧
      (Source.MxNet.axisOf n a % n = q ↔ a ≠ 1 - n ∧ a ≠ -n) := by
  obtain ⟨k, hk, hak⟩ : ∃ k : Nat, k < n ∧ a % n = k :=
    ⟨(a % n).toNat, by have := Int.emod_lt_of_pos a (b := n) (by omega); omega,
      (Int.toNat_of_nonneg (Int.emod_nonneg a (by omega))).symm⟩
  obtain ⟨order, horder⟩ := Axes.exists_channelsLast (s := List.range n) (by simp; omega)
  have hplaced : ∀ j < n, order.length = n ∧ order[Axes.lastPlace n j]? = some j := by
    intro j hj
    have h := Axes.getElem?_channelsLast horder (by simpa using hj)
    rw [List.length_range] at h
    exact ⟨h.1, by rw [h.2, List.getElem?_range hj]⟩
  have hlen : order.length = n := (hplaced k hk).1
  have hsecond : order[k]? = some (Axes.secondPlace n k) := by
    have h := (hplaced _ (Axes.secondPlace_lt (by omega) hk)).2
    rwa [Axes.lastPlace_secondPlace (by omega)] at h
  refine ⟨order, Axes.secondPlace n k, Axes.lastPlace n k, horder, ?_, ?_, ?_⟩
  · refine Value.nth_of_range (by omega) (by omega) ?_
    rw [hlen, hak, Int.toNat_natCast, hsecond]
  · rw [hak]
    exact (hplaced k hk).2
  · rw [Value.emod_of_range hlow hhigh] at hak
    by_cases ha : a < 0
    · obtain rfl : a = k - n := by rw [if_pos ha] at hak; omega
      rw [Axes.firstAxis_back_iff hn hk, Axes.axisOf_back_iff hn hk]
      omega
    · obtain rfl : a = k := by rwa [if_neg ha] at hak
      rw [Axes.firstAxis_front, Axes.axisOf_front (by omega),
        Int.emod_eq_of_lt (by omega) (by have := Axes.secondPlace_lt (by omega) hk; omega),
        Int.emod_eq_of_lt (by omega) (by have := Axes.lastPlace_lt hk; omega)]
      omega

theorem carried_axis_iff_image : (3 ≤ 4 ∧ -(4 : Nat) ≤ (-2 : Int) ∧ (-2 : Int) < (4 : Nat)) ∧
    ∃ (order : List Nat) (p q : Nat), Axes.channelsLast (List.range 4) = .ok order ∧
      Value.nth order (-2) = .ok p ∧ order[q]? = some 2 ∧ Axes.firstAxis 4 (-2) % (4 : Nat) = p ∧
      Source.MxNet.axisOf 4 (-2) % (4 : Nat) = q := by
  have hrange : 3 ≤ 4 ∧ -(4 : Nat) ≤ (-2 : Int) ∧ (-2 : Int) < (4 : Nat) := by decide
  obtain ⟨order, p, q, horder, hp, hq, hthere, hback⟩ := carried_axis_iff hrange.1 hrange.2.1 hrange.2.2
  exact ⟨hrange, order, p, q, horder, hp, hq, hthere.mpr (by decide), hback.mpr (by decide)⟩

theorem channels_named_from_end : Axes.channelsLast (List.range 4) = .ok [0, 2, 3, 1] ∧
    Value.nth [0, 2, 3, 1] (-1) = .ok 1 ∧ Axes.firstAxis 4 (-1) % (4 : Nat) = 0 ∧
    [0, 2, 3, 1][3]? = some ((-3 : Int) % (4 : Nat)).toNat ∧ Source.MxNet.axisOf 4 (-3) % (4 : Nat) = 0 := by
  refine ⟨rfl, rfl, ?_, ?_, ?_⟩ <;> decide

end NetBridge
