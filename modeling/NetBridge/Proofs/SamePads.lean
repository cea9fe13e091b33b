import Mathlib.Data.Rat.Floor
import NetBridge.Proofs.BuilderSteps
import NetBridge.Proofs.SpatialPads
import NetBridge.Source.Cntk

/-!
# Pads that keep every position

A window over an extent `x` in steps of `s` is to have `⌈x / s⌉` positions. The three ways to work out the pad that
this takes agree (`sameTotal`, `leftOver`, `Cntk.padsOf`).
-/

namespace NetBridge

open Value

namespace Padding

/-! ## One axis -/

section
variable {x k s : Int}

theorem sameExtent_bounds (x : Int) (hs : 0 < s) : x ≤ sameExtent x s * s ∧ sameExtent x s * s < x + s := by
  rw [sameExtent, Int.fdiv_eq_ediv_of_nonneg _ hs.le]
  have hdiv := Int.mul_ediv_add_emod (x + s - 1) s
  have hlt := Int.emod_lt_of_pos (x + s - 1) hs
  have hnonneg := Int.emod_nonneg (x + s - 1) hs.ne'
  rw [Int.mul_comm] at hdiv
  omega

theorem sameExtent_eq_ceil (x : Int) (hs : 0 < s) : sameExtent x s = ⌈(x : ℚ) / s⌉ := by
  obtain ⟨hle, hlt⟩ := sameExtent_bounds x hs
  have hs' : (0 : ℚ) < s := by exact_mod_cast hs
  symm
  rw [Int.ceil_eq_iff, lt_div_iff₀ hs', div_le_iff₀ hs']
  constructor
  · have : (sameExtent x s - 1) * s < x := by rw [Int.sub_mul]; omega
    exact_mod_cast this
  · exact_mod_cast hle

theorem sameTotal_positions (x : Int) (hs : 0 < s) (hk : 1 ≤ k) :
    (x + sameTotal x k s - k) / s + 1 = sameExtent x s := by
  obtain ⟨hle, hlt⟩ := sameExtent_bounds x hs
  have hmul : (sameExtent x s - 1) * s = sameExtent x s * s - s := by rw [Int.sub_mul, Int.one_mul]
  rw [sameTotal]
  suffices h : ∀ t, (sameExtent x s - 1) * s ≤ t → t < (sameExtent x s - 1) * s + s → t / s + 1 = sameExtent x s by
    exact h _ (by omega) (by omega)
  intro t hfrom hto
  have hlow : sameExtent x s - 1 ≤ t / s := (Int.le_ediv_iff_mul_le hs).mpr hfrom
  have hhigh : t / s < sameExtent x s := by
    rw [Int.ediv_lt_iff_lt_mul hs]
    omega
  omega

theorem leftOver_eq (x k : Int) (hs : 0 < s) : leftOver x k s = .ok (sameTotal x k s) := by
  obtain ⟨hle, hlt⟩ := sameExtent_bounds x hs
  have hmul : (sameExtent x s - 1) * s = sameExtent x s * s - s := by rw [Int.sub_mul, Int.one_mul]
  have hrest : (sameExtent x s - 1) * s = x - if x.fmod s = 0 then s else x.fmod s := by
    rw [Int.fmod_eq_emod_of_nonneg _ hs.le]
    rcases hle.eq_or_lt with he | hne
    · have hmod : x % s = 0 := by rw [he, Int.mul_emod_left]
      omega
    · have hmod : x % s = x - (sameExtent x s - 1) * s := by
        rw [← Int.sub_mul_emod_self_right x (sameExtent x s - 1) s]
        exact Int.emod_eq_of_lt (by omega) (by omega)
      omega
  have hcancel (r : Int) : x - r + k - x = k - r := by omega
  rw [leftOver, if_neg hs.ne', sameTotal, hrest, hcancel]

theorem halve_bounds (t : Int) : (halve t).1 ≤ (halve t).2 ∧ (halve t).2 ≤ (halve t).1 + 1 ∧
    (halve t).1 + (halve t).2 = t := by
  rw [halve, Int.fdiv_eq_ediv_of_nonneg _ (by decide)]
  omega

def kernelPads (k : Int) : Int × Int := (if k.fmod 2 ≠ 0 then k.fdiv 2 else k.fdiv 2 - 1, k.fdiv 2)

theorem halve_sameTotal_one (x : Int) (hk : 1 ≤ k) :
    halve (sameTotal x k 1) = kernelPads k := by
  have htotal : sameTotal x k 1 = k - 1 := by
    rw [sameTotal, sameExtent, Int.fdiv_one]
    omega
  rw [halve, kernelPads, Int.fdiv_eq_ediv_of_nonneg _ (by decide), Int.fdiv_eq_ediv_of_nonneg _ (by decide),
    Int.fmod_eq_emod_of_nonneg _ (by decide), Prod.mk.injEq]
  constructor
  · split <;> omega
  · omega

end

/-! ## All axes -/

def around {α : Type} (channelsFirst : Bool) (batch channels : α) (spatial : List α) : List α :=
  if channelsFirst then batch :: channels :: spatial else batch :: spatial ++ [channels]

section
variable {first : Bool} {xs ks ss strides : List Int}

variable {α : Type} {i : Nat} {ps : List (Int × Int)}

@[simp] theorem length_around (a b : α) (l : List α) : (around first a b l).length = l.length + 2 := by
  cases first <;> simp [around]

theorem spatialPart_around {β : Type} {xs : List α} {ss strides : List β} (a b : α) (c d : β)
    (hlen : xs.length = ss.length) (h : strides = ss ∨ strides = around first c d ss) :
    spatialPart first (around first a b xs) strides = (xs, ss) := by
  cases first
  · have hextents : inner (around false a b xs) = xs := by simp [inner_eq, around]
    rcases h with rfl | rfl
    · simp [spatialPart, hextents, hlen]
    · have hcut : slice (around false c d ss) (some 1) (some (-1)) = ss := by
        exact (inner_eq _).trans (by simp [around])
      have hextra : (xs.length : Int) - (around false c d ss).length + 1 = -1 := by simp; omega
      simp only [spatialPart, hextents, hextra, hcut]
      rfl
  · have hdrop {γ : Type} (a b : γ) (l : List γ) : sliceFrom (around true a b l) 2 = l := by
      simp [sliceFrom, slice, bound, around]
    rcases h with rfl | rfl
    · simp [spatialPart, hdrop, hlen]
    · have hextra : ((around true c d ss).length : Int) - xs.length = 2 := by simp; omega
      simp only [spatialPart, hdrop, hextra]
      rfl

theorem samePairs_eq (hk : ks.length = xs.length) (hs : ss.length = xs.length) (hpos : ∀ s ∈ ss, 0 < s) :
    ∃ ps, samePairs xs ks ss = .ok ps ∧ ps.length = xs.length ∧
      ∀ (i : Nat) (x k s : Int), xs[i]? = some x → ks[i]? = some k → ss[i]? = some s →
        ps[i]? = some (halve (sameTotal x k s)) := by
  induction xs generalizing ks ss with
  | nil => exact ⟨[], rfl, rfl, by simp⟩
  | cons x xs ih =>
    obtain ⟨k, ks, rfl⟩ := List.exists_cons_of_length_eq_add_one hk
    obtain ⟨s, ss, rfl⟩ := List.exists_cons_of_length_eq_add_one hs
    obtain ⟨ps, hps, hlen, hat⟩ := ih (by simpa using hk) (by simpa using hs)
      fun s hs => hpos s (.tail _ hs)
    refine ⟨halve (sameTotal x k s) :: ps, ?_, by simpa using hlen, fun i => ?_⟩
    · rw [samePairs, if_neg (hpos s (.head _)).ne', hps]
      rfl
    · cases i with
      | zero => simp
      | succ i => simpa using hat i

theorem framed_eq (ps : List (Int × Int)) : framed first ps = flat (around first (0, 0) (0, 0) ps) := by
  cases first <;> rfl

theorem ofAxis_flat {p : Int × Int} (h : ps[i]? = some p) : ofAxis (flat ps) ps.length i = p := by
  obtain ⟨hi, rfl⟩ := List.getElem?_eq_some_iff.mp h
  simp [ofAxis, flat, hi, List.getElem?_append]

theorem sameOf_ints (hlen : xs.length = ss.length) (batch channels a b : Int)
    (h : strides = ss ∨ strides = around first a b ss) (hps : samePairs xs ks ss = .ok ps) :
    sameOf first ((around first batch channels xs).map .int) (.ints ks) (strides.map .int) =
      .ok (flat (around first (0, 0) (0, 0) ps)) := by
  have hread (ns : List Int) : (ns.map int).mapM toInt = .ok ns :=
    (toInts_ints ns)
  have hkernel : (ints ks).toInts = .ok ks := toInts_ints ks
  rw [sameOf, hread, hread, hkernel, ← framed_eq]
  simp only [same, spatialPart_around batch channels a b hlen h, hps]
  rfl

theorem padsOf_auto (ks : List Int) : Source.Cntk.padsOf (ks.map .int) (List.replicate ks.length (.bool true)) =
    .ok (flat (around false (0, 0) (0, 0) (ks.map kernelPads))) := by
  have hfst : (ks.zipIdx.map fun p => kernelPads p.1) = ks.map kernelPads := by
    conv_rhs => rw [← List.zipIdx_map_fst 0 ks, List.map_map]
    rfl
  rw [Source.Cntk.padsOf, List.zipIdx_map, List.mapM_map, mapM_eq_map, hfst]
  · rfl
  · intro p hp
    have hlt : p.2 < ks.length := List.snd_lt_of_mem_zipIdx hp
    have hauto : (List.replicate ks.length (bool true))[p.2]? = some (.bool true) := by simp [hlt]
    simp only [Function.comp, Prod.map, id, hauto]
    rfl

end

end Padding

open Padding in
/-- The pads that keep every position, their parts on each axis and the other ways to work them out. -/
theorem same_pads_agree {first : Bool} {xs ks ss strides : List Int} (hk : ks.length = xs.length)
    (hs : ss.length = xs.length) (hkernel : ∀ k ∈ ks, 1 ≤ k) (hstride : ∀ s ∈ ss, 1 ≤ s) (batch channels a b : Int)
    (hstrides : strides = ss ∨ strides = around first a b ss) :
    ∃ pads, sameOf first ((around first batch channels xs).map .int) (.ints ks) (strides.map .int) = .ok pads ∧
      pads.length = 2 * (xs.length + 2) ∧ ofAxis pads (xs.length + 2) 0 = (0, 0) ∧
      ofAxis pads (xs.length + 2) (if first then 1 else xs.length + 1) = (0, 0) ∧
      (∀ (i : Nat) (x k s : Int), xs[i]? = some x → ks[i]? = some k → ss[i]? = some s → ∃ start stop,
        ofAxis pads (xs.length + 2) (i + if first then 2 else 1) = (start, stop) ∧
        start ≤ stop ∧ stop ≤ start + 1 ∧ start + stop = max 0 ((⌈(x : ℚ) / s⌉ - 1) * s + k - x) ∧
        (x + start + stop - k) / s + 1 = ⌈(x : ℚ) / s⌉ ∧
        windowPad x k s = .ok ((start + stop) % 2 == 1, start + stop)) ∧
      (first = false → (∀ s ∈ ss, s = 1) →
        Source.Cntk.padsOf (ks.map .int) (List.replicate ks.length (.bool true)) = .ok pads) := by
  obtain ⟨ps, hps, hlen, hat⟩ := samePairs_eq hk hs hstride
  have hrows : (around first (0, 0) (0, 0) ps).length = xs.length + 2 := by simp [hlen]
  refine ⟨_, sameOf_ints hs.symm batch channels a b hstrides hps, ?_, ?_, ?_, fun i x k s hx hk hs => ?_, ?_⟩
  · simp [flat, hlen]
    omega
  · rw [← hrows]
    exact ofAxis_flat (by cases first <;> rfl)
  · rw [← hrows]
    refine ofAxis_flat ?_
    cases first
    · simp [around, hlen]
    · rfl
  · have hi : i < ps.length := by
      rw [hlen]
      exact (List.getElem?_eq_some_iff.mp hx).1
    have hpos : 0 < s := hstride s (List.mem_of_getElem? hs)
    have hrow : (around first (0, 0) (0, 0) ps)[i + if first then 2 else 1]? = ps[i]? := by
      cases first <;> simp [around, List.getElem?_append_left hi]
    have haxis := ofAxis_flat (hrow.trans (hat i x k s hx hk hs))
    rw [hrows] at haxis
    obtain ⟨hle, hle', hsum⟩ := halve_bounds (sameTotal x k s)
    refine ⟨(halve (sameTotal x k s)).1, (halve (sameTotal x k s)).2, haxis, hle, hle', ?_, ?_, ?_⟩
    · rw [hsum, sameTotal, sameExtent_eq_ceil x hpos]
    · rw [Int.add_assoc, hsum, sameTotal_positions x hpos (hkernel k (List.mem_of_getElem? hk)),
        sameExtent_eq_ceil x hpos]
    · have hodd : ((sameTotal x k s).fmod 2 != 0) = (sameTotal x k s % 2 == 1) := by
        rw [Int.fmod_eq_emod_of_nonneg _ (by decide)]
        grind
      rw [hsum, ← hodd]
      rw [windowPad, leftOver_eq x k hpos]
      rfl
  · rintro rfl hone
    have hpads : ps = ks.map kernelPads := by
      refine List.ext_getElem (by simp [hlen, hk]) fun i h₁ h₂ => ?_
      have hx : i < xs.length := hlen ▸ h₁
      have hi := hat i xs[i] (ks[i]) (ss[i]) (by simp) (by simp) (by simp)
      rw [hone _ (List.getElem_mem ..), halve_sameTotal_one _ (hkernel _ (List.getElem_mem ..)),
        List.getElem?_eq_getElem h₁] at hi
      simpa using hi
    rw [padsOf_auto, hpads]

open Padding in
theorem same_pads_agree_strided :
    sameOf false ([1, 7, 5, 3].map .int) (.ints [2, 3]) ([1, 3, 1, 1].map .int) = .ok [0, 0, 1, 0, 0, 1, 1, 0] ∧
      windowPad 7 2 3 = .ok (true, 1) := by
  obtain ⟨pads, hpads, -, -, -, hat, -⟩ := @same_pads_agree false [7, 5] [2, 3] [3, 1] [1, 3, 1, 1]
    rfl rfl (by decide) (by decide) 1 3 1 1 (.inr rfl)
  obtain rfl : [0, 0, 1, 0, 0, 1, 1, 0] = pads := Except.ok.inj hpads
  obtain ⟨start, stop, haxis, -, -, -, -, hwindow⟩ := hat 0 7 2 3 rfl rfl rfl
  obtain ⟨rfl, rfl⟩ := Prod.mk.inj haxis
  exact ⟨hpads, hwindow⟩

end NetBridge
