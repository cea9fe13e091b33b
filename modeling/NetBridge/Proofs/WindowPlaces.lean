import NetBridge.Source.Onnx
import NetBridge.Proofs.RunSteps
import Mathlib.Tactic.Ring

/-!
# Places of windows

The extent of a dilated kernel is computed from half of the kernel. The half of an even one is rounded, and the extent
is short by one dilation. The shape is right only where the stride does not notice (`conv_sizes_iff`).
-/

namespace NetBridge.Source.Onnx

structure Axis where
  size : Int
  kernel : Int
  dilation : Int := 1
  stride : Int := 1
  front : Int := 0
  back : Int := 0

namespace Axis

def extent (a : Axis) : Int := (a.kernel - 1) * a.dilation + 1

def room (a : Axis) (extent : Int) : Int := a.size + a.front + a.back - extent

/-- The number of places for a window of this extent. -/
def places (a : Axis) (extent : Int) : Int := (a.room extent).fdiv a.stride + 1

/-- The kernel is odd, or the remainder and a dilation stay within one stride. -/
def Exact (a : Axis) : Prop :=
  let r := a.room a.extent % a.stride
  a.kernel % 2 = 0 → 0 ≤ r + a.dilation ∧ r + a.dilation < a.stride

end Axis

theorem dilatedExtent_eq (a : Axis) :
    dilatedExtent a.kernel a.dilation = if a.kernel % 2 = 0 then a.extent - a.dilation else a.extent := by
  have hhalf : (a.kernel - 1).fdiv 2 * 2 = if a.kernel % 2 = 0 then a.kernel - 2 else a.kernel - 1 := by
    rw [Int.fdiv_eq_ediv_of_nonneg _ (by decide)]
    split <;> omega
  rw [dilatedExtent, Int.mul_right_comm, hhalf, Axis.extent]
  split <;> ring

theorem add_ediv_eq_iff {n d s : Int} (hs : 0 < s) : (n + d) / s = n / s ↔ 0 ≤ n % s + d ∧ n % s + d < s := by
  have hsplit := Int.ediv_mul_add_emod n s
  rw [Int.ediv_eq_iff_of_pos hs]
  omega

theorem places_eq_iff {a : Axis} (hs : 1 ≤ a.stride) :
    a.places (dilatedExtent a.kernel a.dilation) = a.places a.extent ↔ a.Exact := by
  unfold Axis.places Axis.Exact
  rw [dilatedExtent_eq]
  by_cases heven : a.kernel % 2 = 0
  · have hshort : a.room (a.extent - a.dilation) = a.room a.extent + a.dilation := by
      unfold Axis.room
      omega
    have hpos : 0 < a.stride := by omega
    simp [heven, hshort, Int.fdiv_eq_ediv_of_nonneg _ hpos.le, add_ediv_eq_iff hpos]
  · simp [heven]

variable {axes : List Axis}

theorem slide_axes {e : Axis → Int} {f : Nat → Except Fault Int} (hs : ∀ a ∈ axes, 1 ≤ a.stride)
    (hf : ∀ (i : Nat) a, axes[i]? = some a → f i = .ok (e a)) :
    slide (axes.flatMap fun a => [a.front, a.back]) (axes.map (·.stride)) f 0 (axes.map (·.size)) =
      .ok (axes.map fun a => a.places (e a)) := by
  suffices h : ∀ done todo, axes = done ++ todo → slide (axes.flatMap fun a => [a.front, a.back])
      (axes.map (·.stride)) f done.length (todo.map (·.size)) = .ok (todo.map fun a => a.places (e a)) from
    h [] axes rfl
  intro done todo haxes
  induction todo generalizing done with
  | nil => rfl
  | cons a todo ih =>
    have hpads : (axes.flatMap fun a => [a.front, a.back]).drop (done.length * 2) =
        a.front :: a.back :: todo.flatMap fun a => [a.front, a.back] := by
      have hlength : (done.flatMap fun a => [a.front, a.back]).length = done.length * 2 := by simp
      rw [haxes, List.flatMap_append, ← hlength, List.drop_left]
      rfl
    have hfront := congrArg (·[0]?) hpads
    have hback := congrArg (·[1]?) hpads
    have hat : axes[done.length]? = some a := by simp [haxes]
    have hstride : ¬a.stride = 0 := by
      have := hs a (by simp [haxes])
      omega
    have hrest := ih (done ++ [a]) (by simp [haxes])
    simp only [List.getElem?_drop, Nat.add_zero, List.length_append, List.length_singleton] at hfront hback hrest
    simp [slide, entry, hfront, hback, hat, hf _ a hat, windowed, hstride, hrest, orFault, Axis.places, Axis.room, bind,
      Except.bind, pure, Except.pure]

/-- The arguments of a convolution, given or by default, say this about the axes. -/
structure Convolves (axes : List Axis) (filters : Int) (weight : List Int)
    (kernel pads strides dilations : Option (List Int)) : Prop where
  filters : weight.head? = some filters
  kernel : kernel.getD (weight.drop 2) = axes.map (·.kernel)
  pads : settings pads (axes.length * 2) 0 = axes.flatMap fun a => [a.front, a.back]
  strides : settings strides axes.length 1 = axes.map (·.stride)
  dilations : settings dilations axes.length 1 = axes.map (·.dilation)
  moving : ∀ a ∈ axes, 1 ≤ a.stride

section
variable {filters : Int} {weight : List Int} {kernel pads strides dilations : Option (List Int)}
  (h : Convolves axes filters weight kernel pads strides dilations) (images channels : Int)
include h

theorem conv_eq : conv (images :: channels :: axes.map (·.size)) weight kernel pads strides dilations =
    .ok (images :: filters :: axes.map fun a => a.places (dilatedExtent a.kernel a.dilation)) := by
  have hslide := slide_axes (e := fun a => dilatedExtent a.kernel a.dilation) (f := fun i => do
    let dilation ← entry (axes.map (·.dilation)) i
    return dilatedExtent (← entry (axes.map (·.kernel)) i) dilation) h.moving fun i a ha => by
      simp [entry, ha, orFault, bind, Except.bind, pure, Except.pure]
  have hdim : (images :: channels :: axes.map (·.size)).length - 2 = axes.length := by simp
  have hweight : entry weight 0 = .ok filters := by
    rw [entry, ← List.head?_eq_getElem?, h.filters]
    rfl
  unfold conv
  dsimp only
  rw [hdim, h.kernel, h.dilations, h.pads, h.strides]
  exact (ok_bind rfl).trans ((ok_bind hweight).trans (ok_bind hslide))

theorem pool_eq {window : Option (List Int)} (hwindow : window.getD [2, 2] = axes.map (·.kernel)) :
    pool (images :: channels :: axes.map (·.size)) window pads strides =
      if axes = [] then .error Fault.position
      else .ok (images :: channels :: axes.map fun a => a.places a.kernel) := by
  have hslide := slide_axes (e := (·.kernel)) (f := entry (axes.map (·.kernel))) h.moving fun i a ha => by
    simp [entry, ha, orFault]
  unfold pool
  dsimp only
  rw [hwindow, List.length_map, h.pads, h.strides]
  by_cases hne : axes = []
  · subst hne
    rfl
  · have hcut : (images :: channels :: axes.map (·.size)).length - axes.length = 2 := by
      simp
      omega
    simp only [hne, List.length_eq_zero_iff, if_false, hcut]
    exact ok_bind hslide

/-- A convolution counts the places of its dilated kernel, and those that a pooling counts for dilations of one,
exactly if all axes are exact. -/
theorem conv_sizes_iff :
    (conv (images :: channels :: axes.map (·.size)) weight kernel pads strides dilations =
      .ok (images :: filters :: axes.map fun a => a.places a.extent) ↔ ∀ a ∈ axes, a.Exact) ∧
    ∀ window : Option (List Int), window.getD [2, 2] = axes.map (·.kernel) → (∀ a ∈ axes, a.dilation = 1) →
      ((∃ sizes, conv (images :: channels :: axes.map (·.size)) weight kernel pads strides dilations =
          .ok (images :: filters :: sizes) ∧
        pool (images :: channels :: axes.map (·.size)) window pads strides = .ok (images :: channels :: sizes)) ↔
        axes ≠ [] ∧ ∀ a ∈ axes, a.Exact) := by
  have hexact : (axes.map fun a => a.places (dilatedExtent a.kernel a.dilation)) =
      (axes.map fun a => a.places a.extent) ↔ ∀ a ∈ axes, a.Exact := by
    rw [List.map_inj_left]
    exact forall₂_congr fun a ha => places_eq_iff (h.moving a ha)
  rw [conv_eq h]
  refine ⟨by simp [hexact], fun window hwindow hone => ?_⟩
  have hplain : (axes.map fun a => a.places a.kernel) = axes.map fun a => a.places a.extent :=
    List.map_congr_left fun a ha => by simp [Axis.extent, hone a ha]
  rw [pool_eq h _ _ hwindow, hplain, ← hexact]
  by_cases hne : axes = []
  · simp [hne]
  · simp [hne, eq_comm]

end

theorem conv_sizes_iff_even : conv [1, 1, 5] [1, 1, 2] none none none none ≠ .ok [1, 1, 4] ∧
    conv [1, 1, 5] [1, 1, 2] none none (some [3]) none = .ok [1, 1, 2] := by
  have hunit : Convolves [{ size := 5, kernel := 2 }] 1 [1, 1, 2] none none none none :=
    ⟨rfl, rfl, rfl, rfl, rfl, by simp⟩
  have hthree : Convolves [{ size := 5, kernel := 2, stride := 3 }] 1 [1, 1, 2] none none (some [3]) none :=
    ⟨rfl, rfl, rfl, rfl, rfl, by simp⟩
  refine ⟨fun he => ?_, (conv_sizes_iff hthree 1 1).1.mpr (by simp [Axis.Exact, Axis.room, Axis.extent])⟩
  simpa [Axis.Exact] using (conv_sizes_iff hunit 1 1).1.mp he

end NetBridge.Source.Onnx
