import NetBridge.Proofs.WindowSides

/-!
# Extents under the written pads

A reader counts the places of a window with the written pads, rounding down. For a convolution it finds the extents of
the node, for a pooling exactly if the stride leaves no remainder or one at most two short of it.
-/

namespace NetBridge

/-- The number of places on an axis of extent `n`, as the attributes of a pooling layer have it. -/
def Layer.pooled (l : Layer) (k : Nat) (n : Int) : Int :=
  (n + (l.ints "pads").getD k 0 + (l.ints "pads").getD (k + 4) 0 - (l.ints "kernel_shape").getD k 0) /
    (l.ints "strides").getD k 0 + 1

namespace Prototxt

section
variable {n k s p o e : Int}

theorem add_ediv_eq (hs : 0 < s) (hnonneg : 0 ≤ e) (hle : e ≤ s) :
    (n + e) / s = n / s + if s ≤ n % s + e then 1 else 0 := by
  have hmod := Int.emod_nonneg n hs.ne'
  have hlt := Int.emod_lt_of_pos n hs
  have hrest : (n % s + e) / s = if s ≤ n % s + e then 1 else 0 := by
    split
    · rw [← Int.sub_add_cancel (n % s + e) s, Int.add_ediv_of_dvd_right (Int.dvd_refl s),
        Int.ediv_eq_zero_of_lt (by omega) (by omega), Int.ediv_self hs.ne']
      rfl
    · exact Int.ediv_eq_zero_of_lt (by omega) (by omega)
  have hsplit : n + e = n % s + e + s * (n / s) := by
    have := Int.mul_ediv_add_emod n s
    omega
  rw [hsplit, Int.add_mul_ediv_left _ _ hs.ne', hrest, Int.add_comm]

theorem quotient_down (hs : 0 < s) : Rounding.down.quotient n s = n / s := Int.fdiv_eq_ediv_of_nonneg _ hs.le

theorem quotient_up (hs : 0 < s) : Rounding.up.quotient n s = n / s + if n % s = 0 then 0 else 1 := by
  rw [Rounding.quotient, Int.fdiv_eq_ediv_of_nonneg _ hs.le, Int.neg_ediv, Int.sign_eq_one_of_pos hs]
  omega

/-- The pad that is written after an axis of extent `n` with `o` places. -/
def padAfter (n k s p o : Int) : Int := endPad p o ((n + p * 2 - k + 1).fdiv s)

theorem padAfter_eq (hs : 0 < s) : padAfter n k s p o =
    p + (o - (n + 2 * p - k) / s - if s ≤ (n + 2 * p - k) % s + 1 then 1 else 0) := by
  rw [padAfter, endPad, Int.fdiv_eq_ediv_of_nonneg _ hs.le, add_ediv_eq hs (by decide) (by omega), Int.mul_comm p 2]
  omega

theorem padAfter_down (hs : 0 < s) (ho : o = Rounding.down.quotient (n + 2 * p - k) s + 1) :
    p ≤ padAfter n k s p o ∧ padAfter n k s p o ≤ p + 1 ∧ (n + p + padAfter n k s p o - k) / s + 1 = o := by
  have hlt := Int.emod_lt_of_pos (n + 2 * p - k) hs
  have hpad : padAfter n k s p o = p + if s ≤ (n + 2 * p - k) % s + 1 then 0 else 1 := by
    rw [padAfter_eq hs, ho, quotient_down hs]
    split <;> omega
  have htotal : n + p + padAfter n k s p o - k = n + 2 * p - k + if s ≤ (n + 2 * p - k) % s + 1 then 0 else 1 := by
    omega
  refine ⟨by rw [hpad]; split <;> omega, by rw [hpad]; split <;> omega, ?_⟩
  rw [htotal, add_ediv_eq hs (by omega) (by omega), ho, quotient_down hs]
  omega

theorem padAfter_up_iff (hs : 0 < s) (ho : o = Rounding.up.quotient (n + 2 * p - k) s + 1) :
    (n + p + padAfter n k s p o - k) / s + 1 = o ↔ (n + 2 * p - k) % s = 0 ∨ s - 2 ≤ (n + 2 * p - k) % s := by
  have hmod := Int.emod_nonneg (n + 2 * p - k) hs.ne'
  have htotal : n + p + padAfter n k s p o - k = n + 2 * p - k +
      (1 + (if (n + 2 * p - k) % s = 0 then 0 else 1) - if s ≤ (n + 2 * p - k) % s + 1 then 1 else 0) := by
    rw [padAfter_eq hs, ho, quotient_up hs]
    omega
  rw [htotal, add_ediv_eq hs (by omega) (by omega), ho, quotient_up hs]
  omega

end

/-- The node has a window, and its own sizes are those that follow from the sizes of its input. -/
structure Placed (g : Net) (i : Nat) (w : Window) (d : Int) (s t : Sizes) : Prop where
  window : (g.node i).window = .ok w
  bounded : w.whole = false
  strides : 0 < w.strideH ∧ 0 < w.strideW
  dilation : (g.node i).dilation = .ok d
  input : g.inputSizes i = .ok (some s)
  sizes : (g.node i).sizes = some t
  output : outputSizes g i = .ok (some t.dims)

structure Extents (s : Sizes) (height width : Int) : Prop where
  height : s.height = .ok height
  width : s.width = .ok width

def windowPads (w : Window) (d ih iw oh ow : Int) : List Int :=
  [0, w.padH, w.padW, 0, 0, padAfter ih (reach d w.kernelH) w.strideH w.padH oh,
    padAfter iw (reach d w.kernelW) w.strideW w.padW ow, 0]

variable {g : Net} {i : Nat} {w : Window} {d ih iw oh ow : Int} {s t : Sizes}

section
variable {attrs : List (String × Value)}

theorem Placed.windowAttrs_eq (h : Placed g i w d s t) (hs : Extents s ih iw) (ht : Extents t oh ow)
    (hkind : (g.node i).kind ≠ some "Deconvolution") : windowAttrs (g.node i) (some s) = do
      let out ← outputAttr (g.node i)
      return (if (g.node i).kind = some "Pooling" then [("kernel_shape", .ints [1, w.kernelH, w.kernelW, 1])] else
        []) ++
        [("pads", .ints (windowPads w d ih iw oh ow)), ("strides", .ints [1, w.strideH, w.strideW, 1]), out] := by
  have hstrides : (w.strideH ≠ 0 && w.strideW ≠ 0) = true := by simp [h.strides.1.ne', h.strides.2.ne']
  simp only [windowAttrs, h.window, h.bounded, h.dilation, h.sizes, known, orFault, hs.height, hs.width, ht.height,
    ht.width, hkind, hstrides, bind, Except.bind]
  rfl

theorem Extents.eq (ht : Extents t oh ow) {b c h v : Int} (hdims : t.dims = [b, c, h, v]) : oh = h ∧ ow = v := by
  have hheight := ht.height
  have hwidth := ht.width
  rw [Sizes.height, Sizes.axis, hdims] at hheight
  rw [Sizes.width, Sizes.axis, hdims] at hwidth
  split at hheight
  · rw [if_pos ‹_›] at hwidth
    exact ⟨(Except.ok.inj hheight).symm, (Except.ok.inj hwidth).symm⟩
  · cases hheight

theorem Placed.extents_eq (h : Placed g i w d s t) (hs : Extents s ih iw) (ht : Extents t oh ow) {r : Rounding}
    (hr : outputSizes g i = do return some (← windowSizes g i r)) :
    oh = r.quotient (ih + 2 * w.padH - reach d w.kernelH) w.strideH + 1 ∧
      ow = r.quotient (iw + 2 * w.padW - reach d w.kernelW) w.strideW + 1 := by
  have houtput : w.output r ih iw d = .ok (r.quotient (ih + 2 * w.padH - reach d w.kernelH) w.strideH + 1,
      r.quotient (iw + 2 * w.padW - reach d w.kernelW) w.strideW + 1) := by
    simp only [Window.output, places, h.strides.1.ne', h.strides.2.ne']
    rfl
  obtain ⟨_, hdims, ⟨⟩⟩ := bind_cases (hr.symm.trans h.output)
  obtain ⟨_, -, hdims⟩ := bind_cases hdims
  rw [ok_bind h.input, ok_bind h.window, ok_bind h.dilation] at hdims
  rw [ok_bind (show known (some s) = .ok s from rfl), ok_bind hs.height, ok_bind hs.width, ok_bind houtput] at hdims
  obtain ⟨l, -, hdims⟩ := bind_cases hdims
  split at hdims
  all_goals
    obtain ⟨c, -, hdims⟩ := bind_cases hdims
    obtain ⟨b, -, hdims⟩ := bind_cases hdims
    exact ht.eq (Except.ok.inj hdims).symm

theorem create_ints {op name : String} {vs : List (String × Value)} {ns : List Int} {l : DraftLayer}
    (h : DraftLayer.create op vs = .ok l) (hvs : (vs.filter (·.1 == name)).map (·.2) = [.ints ns]) (hns : ns ≠ []) :
    l.layer.ints name = ns := by
  unfold DraftLayer.create at h
  split at h
  · rename_i l hl
    cases h
    rw [Layer.ints, Layer.attr_of_assigned rfl hvs hns hl]
    rfl
  · cases h

/-- The attributes that the layer of the node gets from its window. -/
theorem Placed.attrs_eq (h : Placed g i w d s t) (hs : Extents s ih iw) (ht : Extents t oh ow)
    (hkind : (g.node i).kind ≠ some "Deconvolution") {p : Nat × Int} (hp : g.onlyParent i = .ok p)
    (hattrs : windowAttrs (g.node i) (g.node p.1).sizes = .ok attrs) : ∃ v, attrs =
      (if (g.node i).kind = some "Pooling" then [("kernel_shape", .ints [1, w.kernelH, w.kernelW, 1])] else []) ++
        [("pads", .ints (windowPads w d ih iw oh ow)), ("strides", .ints [1, w.strideH, w.strideW, 1]),
          ("_output_shapes", v)] := by
  obtain ⟨_, hp', hsizes⟩ := bind_cases h.input
  cases hp.symm.trans hp'
  rw [Except.ok.inj hsizes, h.windowAttrs_eq hs ht hkind] at hattrs
  obtain ⟨⟨_, v⟩, hout, hattrs⟩ := bind_cases hattrs
  cases outputAttr_name hout
  exact ⟨v, (Except.ok.inj hattrs).symm⟩

/-- With the pads that are written, a reader finds the extents of the blob exactly if the windows fit, or if at most two
cells are missing for the last one. -/
theorem pooled_eq_iff {ls : List DraftLayer} (hkind : (g.node i).kind = some "Pooling") (h : Placed g i w d s t)
    (hs : Extents s ih iw) (ht : Extents t oh ow) (hl : poolLayer g i = .ok ls) :
    ∃ l, ls = [l] ∧
      (l.layer.pooled 1 ih = oh ↔ (ih + 2 * w.padH - w.kernelH) % w.strideH = 0 ∨
        w.strideH - 2 ≤ (ih + 2 * w.padH - w.kernelH) % w.strideH) ∧
      (l.layer.pooled 2 iw = ow ↔ (iw + 2 * w.padW - w.kernelW) % w.strideW = 0 ∨
        w.strideW - 2 ≤ (iw + 2 * w.padW - w.kernelW) % w.strideW) := by
  obtain ⟨p, attrs, method, l, hp, hattrs, hl, rfl⟩ := poolLayer_eq_ok hl
  obtain ⟨v, rfl⟩ := h.attrs_eq hs ht (by rw [hkind]; decide) hp hattrs
  rw [if_pos hkind] at hl
  obtain ⟨hoh, how⟩ := h.extents_eq hs ht (by rw [outputSizes, hkind]; rfl)
  obtain rfl : d = 1 := by
    obtain ⟨_, -, hd⟩ := bind_cases h.dilation
    rw [if_pos hkind] at hd
    exact (Except.ok.inj hd).symm
  have hreach (k : Int) : reach 1 k = k := by
    unfold reach
    omega
  have hpads : l.layer.ints "pads" = windowPads w 1 ih iw oh ow := create_ints hl (by simp) (by simp [windowPads])
  have hkernel : l.layer.ints "kernel_shape" = [1, w.kernelH, w.kernelW, 1] := create_ints hl (by simp) (by simp)
  have hstrides : l.layer.ints "strides" = [1, w.strideH, w.strideW, 1] := create_ints hl (by simp) (by simp)
  simp only [hreach] at hoh how
  refine ⟨l, rfl, ?_⟩
  simp only [Layer.pooled, hpads, hkernel, hstrides, windowPads, hreach]
  exact ⟨padAfter_up_iff h.strides.1 hoh, padAfter_up_iff h.strides.2 how⟩

end

/-- A window over an image of extent `n` with `o` places on each axis. -/
def windowNet (l : LayerSpec) (n o : Int) : Net := {
  pool := #[
    { name := "x", kind := some "Data", children := [1], sizes := some { dims := [1, 1, n, n] } },
    { name := l.name, kind := some l.name, spec := some l, parents := [(0, 0)],
      sizes := some { dims := [1, 1, o, o] } }]
  members := [0, 1] }

def maximumSpec (kernel stride : Int) : LayerSpec :=
  { name := "Pooling", type := .named "Pooling", pool := { kernel := kernel, stride := stride } }

theorem pooled_eq_iff_overlapping : ∃ l, poolLayer (windowNet (maximumSpec 3 2) 6 3) 1 = .ok [l] ∧
    l.layer.pooled 1 6 = 3 ∧ l.layer.pooled 2 6 = 3 := by
  have hplaced : Placed (windowNet (maximumSpec 3 2) 6 3) 1 ⟨false, 3, 3, 2, 2, 0, 0⟩ 1 { dims := [1, 1, 6, 6] }
      { dims := [1, 1, 3, 3] } := ⟨rfl, rfl, by decide, rfl, rfl, rfl, rfl⟩
  obtain ⟨ls, hls⟩ : ∃ ls, poolLayer (windowNet (maximumSpec 3 2) 6 3) 1 = .ok ls := ⟨_, rfl⟩
  obtain ⟨l, rfl, hheight, hwidth⟩ := pooled_eq_iff rfl hplaced ⟨rfl, rfl⟩ ⟨rfl, rfl⟩ hls
  exact ⟨l, hls, hheight.mpr (by decide), hwidth.mpr (by decide)⟩

/-- The second window starts behind the image, and the written pads are too short for it. -/
theorem sparse_windows_lost : outputSizes (windowNet (maximumSpec 2 4) 3 2) 1 = .ok (some [1, 1, 2, 2]) ∧
    ∃ l, poolLayer (windowNet (maximumSpec 2 4) 3 2) 1 = .ok [l] ∧ l.layer.ints "pads" = [0, 0, 0, 0, 0, 2, 2, 0] ∧
      l.layer.pooled 1 3 = 1 ∧ l.layer.pooled 2 3 = 1 :=
  ⟨rfl, _, rfl, rfl, rfl, rfl⟩

/-- The pads that are written for a convolution give the extents of the blob, and at the far side there is at most one
more than at the near side. -/
theorem convLayer_pads {ls : List DraftLayer} {op : String} {transposed : Bool}
    (hkind : (g.node i).kind = some "Convolution") (h : Placed g i w d s t) (hs : Extents s ih iw)
    (ht : Extents t oh ow)
    (hl : convLayer op transposed g i = .ok ls) :
    ∃ l eh ew, ls = [l] ∧ l.layer.ints "pads" = [0, w.padH, w.padW, 0, 0, eh, ew, 0] ∧
      (w.padH ≤ eh ∧ eh ≤ w.padH + 1 ∧ (ih + w.padH + eh - (d * (w.kernelH - 1) + 1)) / w.strideH + 1 = oh) ∧
      (w.padW ≤ ew ∧ ew ≤ w.padW + 1 ∧ (iw + w.padW + ew - (d * (w.kernelW - 1) + 1)) / w.strideW + 1 = ow) := by
  obtain ⟨p, attrs, rest, l, hp, hattrs, hl, rfl, hrest⟩ := convLayer_eq_ok hl
  obtain ⟨v, rfl⟩ := h.attrs_eq hs ht (by rw [hkind]; decide) hp hattrs
  obtain ⟨hoh, how⟩ := h.extents_eq hs ht (by rw [outputSizes, hkind]; rfl)
  have hnone : rest.filter (·.1 == "pads") = [] := List.filter_eq_nil_iff.mpr fun x hx he => by
    have hx := hrest x hx
    rw [beq_iff_eq.mp he] at hx
    exact absurd hx (by decide)
  have hpads : l.layer.ints "pads" = windowPads w d ih iw oh ow :=
    create_ints hl (by simp [hnone]) (by simp [windowPads])
  exact ⟨l, _, _, rfl, hpads, padAfter_down h.strides.1 hoh, padAfter_down h.strides.2 how⟩

def dilatedSpec : LayerSpec :=
  { name := "Convolution", type := .named "Convolution",
    conv := { outputs := 1, kernel := [3], stride := [2], dilation := [2], pad := [1] } }

theorem convLayer_pads_dilated : ∃ l, convLayer "Conv" false (windowNet dilatedSpec 7 3) 1 = .ok [l] ∧
    l.layer.ints "pads" = [0, 1, 1, 0, 0, 2, 2, 0] ∧ ((7 : Int) + 1 + 2 - (2 * (3 - 1) + 1)) / 2 + 1 = 3 := by
  have hplaced : Placed (windowNet dilatedSpec 7 3) 1 ⟨false, 3, 3, 2, 2, 1, 1⟩ 2 { dims := [1, 1, 7, 7] }
      { dims := [1, 1, 3, 3] } := ⟨rfl, rfl, by decide, rfl, rfl, rfl, rfl⟩
  obtain ⟨l, hl, hwritten⟩ : ∃ l, convLayer "Conv" false (windowNet dilatedSpec 7 3) 1 = .ok [l] ∧
      l.layer.ints "pads" = [0, 1, 1, 0, 0, 2, 2, 0] := ⟨_, rfl, rfl⟩
  obtain ⟨l', eh, ew, he, hpads, ⟨-, -, hheight⟩, -⟩ := convLayer_pads rfl hplaced ⟨rfl, rfl⟩ ⟨rfl, rfl⟩ hl
  cases he
  rw [hwritten] at hpads
  cases hpads
  exact ⟨l, hl, hwritten, hheight⟩

end Prototxt

end NetBridge
