import NetBridge.Proofs.AxisNumbers
import NetBridge.Proofs.AxisOrders
import NetBridge.Proofs.NumberText
import NetBridge.Proofs.SpatialPads
import NetBridge.Target.Caffe

/-!
# Channels second and channels last

Shapes, axis numbers, kernels and images are carried from one layout to the other by separate rules, and these agree
(`channel_layouts_agree`).
-/

namespace NetBridge

open Code Run Axes

/-! ## Inputs -/

section
variable {v : Vertex Layer} {s r : List Int}

theorem feedSize_outcome {d : Int} (hd : 0 < d) (i : Nat) (c : Scope) :
    (Target.MxNet.feedSize v d i).outcome c = (.ok d, c) := by
  have hknown : d ≠ -1 := by omega
  simp only [Target.MxNet.feedSize, hknown]
  rfl

theorem feedSizes_outcome {sizes : List Int} (hpos : ∀ d ∈ sizes, 0 < d) (i : Nat) (c : Scope) :
    ((sizes.zipIdx i).mapM fun p => Target.MxNet.feedSize v p.1 p.2).outcome c = (.ok sizes, c) := by
  induction sizes generalizing i with
  | nil => rfl
  | cons d sizes ih =>
    have hd := feedSize_outcome (v := v) (hpos d (.head _)) i c
    have hrest := ih (fun e he => hpos e (.tail _ he)) (i + 1)
    exact mapM_cons_eq_ok.mpr ⟨d, c, sizes, hd, hrest, rfl⟩

theorem channelsLast_pos (hlast : channelsLast s = .ok r) (hpos : ∀ d ∈ s, 0 < d) : ∀ d ∈ r, 0 < d := by
  obtain ⟨x, y, ds, rfl, rfl⟩ := channelsLast_eq_ok hlast
  intro d hd
  apply hpos
  simp only [List.mem_cons, List.mem_append] at hd ⊢
  tauto

theorem feed_outcome (hlast : channelsLast s = .ok r) (hpos : ∀ d ∈ s, 0 < d)
    (hshape : v.item.attrs.find? "shape" = some (.shape r)) (c : Scope) :
    (Target.MxNet.feed v).outcome c = (.ok (), { c with feeds := c.feeds.insert v.name (joined ", " s) }) := by
  have hdims : v.item.dims "shape" = r := by simp [Layer.dims, Layer.attr, Table.findD, hshape, Attr.dims]
  have hsizes := feedSizes_outcome (v := v) (channelsLast_pos hlast hpos) 0 c
  obtain ⟨x, y, ds, rfl, rfl⟩ := channelsLast_eq_ok hlast
  have hback : Value.nth (x :: ds ++ [y]) (-1) = .ok y := Value.nth_back (x :: ds) y []
  have hrest : (x :: ds ++ [y]).dropLast = x :: ds := List.dropLast_concat
  refine bind_eq_ok.mpr ⟨_, c, hdims ▸ hsizes, lift_bind_eq_ok.mpr ⟨y, hback, ?_⟩⟩
  rw [hrest]
  rfl

theorem dataInput_outcome (hlast : channelsLast s = .ok r) (hpos : ∀ d ∈ s, 0 < d)
    (hshape : v.item.attrs.find? "shape" = some (.shape r)) (c : Scope) :
    (Target.Caffe.dataInput v).outcome c = (.ok [Target.Caffe.field v.variableName
      ["L.Input(shape=[dict(dim=", intList s, ")], ntop=1)"]], c) := by
  have hget : v.item.get "shape" = .ok (.shape r) := by rw [Layer.get, hshape]; rfl
  have hsizes : r.map (fun d => if d > 0 then d else 1) = r :=
    (List.map_congr_left fun d hd => if_pos (channelsLast_pos hlast hpos d hd)).trans (List.map_id r)
  obtain ⟨x, y, ds, rfl, rfl⟩ := channelsLast_eq_ok hlast
  have hfront : Value.nth (x :: ds ++ [y]) 0 = .ok x := Value.nth_zero x _
  have hback : Value.nth (x :: ds ++ [y]) (-1) = .ok y := Value.nth_back (x :: ds) y []
  have hinner : Value.inner (x :: ds ++ [y]) = ds := by simp [Value.inner_eq]
  refine lift_bind_ok hget ?_
  simp only [hsizes, hinner]
  refine lift_bind_ok hfront ?_
  exact lift_bind_ok hback rfl

end

/-! ## Printed orders -/

section
variable {d : Nat} {t : Tensor}

theorem kernel_there_and_back (ht : t.rank = d + 2) : ∃ u, t.transpose (kernelChannelsLast t.rank) = .ok u ∧
    u.transpose (kernelChannelsFirst d) = .ok t := by
  have hrank : t.cells.rank = d + 2 := ht
  refine ⟨t.reordered (inward d), ?_, kernelChannelsFirst_eq d ▸ transpose_outward hrank⟩
  rw [ht, kernelChannelsLast_eq]
  exact Tensor.transpose_reordered (hrank ▸ axisOrder_inward d)

theorem image_there_and_back (ht : t.rank = d + 1) :
    ∃ u, t.transpose (imageIn d) = .ok u ∧ u.transpose (imageOut d) = .ok t := by
  have hrank : t.cells.rank = d + 1 := ht
  have hin : AxisOrder t.cells.rank (imageFront d) := hrank ▸ axisOrder_imageFront d
  have hout : AxisOrder t.cells.rank (imageBack d) := hrank ▸ axisOrder_imageBack d
  refine ⟨t.reordered (imageFront d), Tensor.transpose_reordered hin, ?_⟩
  rw [imageOut_eq]
  exact Tensor.transpose_back hin hout (hrank ▸ imageBack_imageFront d)

end

/-- An order in words stands for the numbers that are read back from it. -/
theorem channel_layouts_agree :
    (∀ (α : Type) (s : List α), 2 ≤ s.length → ∃ r, Axes.channelsLast s = .ok r ∧ ∀ (a : Nat) (h : a < s.length),
      Value.nth r (Axes.lastAxis a) = .ok s[a] ∧ Value.nth r (Source.MxNet.axisOf s.length a) = .ok s[a] ∧
        Axes.firstAxis s.length (Source.MxNet.axisOf s.length a) = a) ∧
    (∀ (s r : List Int) (v : Vertex Layer) (c : Scope), Axes.channelsLast s = .ok r → (∀ d ∈ s, 0 < d) →
      v.item.attrs.find? "shape" = some (.shape r) →
      (Target.MxNet.feed v).outcome c = (.ok (), { c with feeds := c.feeds.insert v.name (joined ", " s) }) ∧
        (Target.Caffe.dataInput v).outcome c = (.ok [Target.Caffe.field v.variableName
          ["L.Input(shape=[dict(dim=", intList s, ")], ntop=1)"]], c)) ∧
    (∀ (d : Nat) (t : Tensor), 1 ≤ d → t.rank = d + 2 →
      ∃ u order, t.transpose (Axes.kernelChannelsLast t.rank) = .ok u ∧
        u.transpose (Axes.kernelChannelsFirst d) = .ok t ∧
        (d ≤ 3 → ∃ listed, Target.MxNet.kernelOrder d = .ok listed ∧ u.transpose listed = .ok t) ∧
        Source.MxNet.wholesOf (.text (axesText Axes.kernelChannelsFirst d)) = .ok order ∧
        u.transpose order = .ok t) ∧
    ∀ (d : Nat) (t : Tensor), 1 ≤ d → t.rank = d + 1 →
      ∃ u inOrder outOrder, Source.MxNet.wholesOf (.text (axesText Axes.imageIn d)) = .ok inOrder ∧
        Source.MxNet.wholesOf (.text (axesText Axes.imageOut d)) = .ok outOrder ∧
        t.transpose inOrder = .ok u ∧ u.transpose outOrder = .ok t := by
  refine ⟨fun α s hs => ?_, fun s r v c hlast hpos hshape => ?_, fun d t hd ht => ?_, fun d t _ ht => ?_⟩
  · obtain ⟨r, hr⟩ := exists_channelsLast hs
    refine ⟨r, hr, fun a ha => ⟨?_, ?_, ?_⟩⟩
    · exact nth_lastAxis hr hs ha
    · exact nth_axisOf hr hs ha
    · exact firstAxis_axisOf hs ha
  · exact ⟨feed_outcome hlast hpos hshape c, dataInput_outcome hlast hpos hshape c⟩
  · obtain ⟨u, hu, hback⟩ := kernel_there_and_back ht
    have hfirst := kernelChannelsFirst_eq d
    have hread : Source.MxNet.wholesOf (.text (axesText kernelChannelsFirst d)) = _ :=
      Source.MxNet.wholesOf_joined (by simp [hfirst, outward])
    exact ⟨u, _, hu, hback, fun hd3 => ⟨_, kernelOrder_eq (by omega), hfirst ▸ hback⟩, hread, hback⟩
  · obtain ⟨u, hu, hback⟩ := image_there_and_back ht
    exact ⟨u, _, _, Source.MxNet.wholesOf_joined (by simp [imageIn]), Source.MxNet.wholesOf_joined (by simp [imageOut]),
      hu, hback⟩

theorem channel_layouts_agree_image :
    (∃ r, Axes.channelsLast [2, 5, 4, 3] = .ok r ∧ Value.nth r (Axes.lastAxis 1) = .ok 5) ∧
      ∃ u, (Tensor.zeros .int64 [6, 5, 3, 3]).transpose [2, 3, 1, 0] = .ok u ∧
        u.transpose [3, 2, 0, 1] = .ok (Tensor.zeros .int64 [6, 5, 3, 3]) := by
  obtain ⟨hshape, -, hkernel, -⟩ := channel_layouts_agree
  constructor
  · obtain ⟨r, hr, haxis⟩ := hshape Nat [2, 5, 4, 3] (by decide)
    exact ⟨r, hr, (haxis 1 (by decide)).1⟩
  · obtain ⟨u, -, hu, hback, -⟩ := hkernel 2 (Tensor.zeros .int64 [6, 5, 3, 3]) (by decide) rfl
    exact ⟨u, hu, hback⟩

end NetBridge
