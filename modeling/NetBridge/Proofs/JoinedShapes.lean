import NetBridge.Prototxt.Layers
import NetBridge.Proofs.RunSteps
import Mathlib.Tactic.IntervalCases

/-!
# Shapes of joined layers

The extent of joined layers is a sum on an axis of the order with the channels second. It is written in the other
order, with an axis from a table, and the two fit together unless layers are joined along the width
(`concat_consistent_iff`).
-/

namespace NetBridge.Prototxt

open List

/-- The extent on the axis is the sum of the extents joined, and the other axes behind the batch are as before. -/
def Consistent (axis : Nat) (out : List Int) (ins : List (List Int)) : Prop :=
  out[axis]? = some (ins.map (·.getD axis 0)).sum ∧ ∀ k, 1 ≤ k → k ≠ axis → ∀ s ∈ ins, out[k]? = s[k]?

structure JoinedBy (g : Net) (i a : Nat) (ss : List Sizes) (t : Sizes) : Prop where
  kind : (g.node i).kind = some "Concat"
  setting : ∃ l, (g.node i).setting = .ok l ∧ l.concatAxis = a
  axis : 1 ≤ a ∧ a ≤ 3
  inputs : (g.sources i).map (fun p => (g.node p).sizes) = ss.map some
  images : ∀ s ∈ t :: ss, s.named = true ∧ s.dims.length = 4
  agree : ∀ s ∈ ss, ∀ s' ∈ ss, ∀ k, k ≠ a → s.dims.getD k 0 = s'.dims.getD k 0
  sizes : (g.node i).sizes = some t
  output : outputSizes g i = .ok (some t.dims)
  bounded : ∀ d ∈ t.dims, fitsInt64 d

theorem joinSizes_eq {a : Nat} {acc : List Int} {ss : List Sizes} (hacc : a < acc.length)
    (hss : ∀ s ∈ ss, a < s.dims.length) : joinSizes a acc (ss.map some) =
      .ok (acc.set a (acc.getD a 0 + (ss.map (·.dims.getD a 0)).sum)) := by
  have hplace {n : Nat} (h : a < n) : Value.place n a = some a := by
    simp [Value.place, show ¬(a : Int) < 0 by omega, h]
  have hnth {xs : List Int} (h : a < xs.length) : Value.nth xs a = .ok (xs.getD a 0) := by
    simp [Value.nth, hplace h, h]
  induction ss generalizing acc with
  | nil => simp [joinSizes, hacc]
  | cons s ss ih =>
    have hs : a < s.dims.length := hss s mem_cons_self
    rw [map_cons, joinSizes, ok_bind (hnth hacc), ok_bind (show orFault Fault.kind (some s) = .ok s from rfl),
      ok_bind (hnth hs), hplace hacc, ok_bind (show orFault Fault.position (some a) = .ok a from rfl),
      ih (by simpa using hacc) fun s hs => hss s (mem_cons_of_mem _ hs)]
    simp [hacc, Int.add_assoc]

section
variable {g : Net} {i a : Nat} {ss : List Sizes} {t : Sizes}

def image (s : Sizes) : List Int := [-1, s.dims.getD 2 0, s.dims.getD 3 0, s.dims.getD 1 0]

theorem imageShape_eq {s : Sizes} (hnamed : s.named = true) (hs : s.dims.length = 4) :
    imageShape s = .ok (image s) := by
  obtain ⟨dims, named⟩ := s
  cases hnamed
  match dims, hs with
  | [_, _, _, _], _ => rfl

theorem JoinedBy.extent (h : JoinedBy g i a ss t) (hne : ss ≠ []) : t.dims.getD a 0 = (ss.map (·.dims.getD a 0)).sum ∧
    ∀ s ∈ ss, ∀ k, k ≠ a → t.dims.getD k 0 = s.dims.getD k 0 := by
  obtain ⟨s, ss, rfl⟩ := exists_cons_of_ne_nil hne
  obtain ⟨l, hl, hax⟩ := h.setting
  have hlen : ∀ s' ∈ s :: ss, a < s'.dims.length := fun s' hs' => by
    have := (h.images s' (mem_cons_of_mem _ hs')).2
    have := h.axis
    omega
  have hconcat : concatSizes g i = .ok t.dims := by
    have hout : outputSizes g i = do return some (← concatSizes g i) := by
      rw [outputSizes, h.kind]
      rfl
    obtain ⟨_, hdims, ⟨⟩⟩ := bind_cases (hout.symm.trans h.output)
    exact hdims
  have hjoin : concatSizes g i = joinSizes a s.dims (ss.map some) := by
    rw [concatSizes, ok_bind hl, hax, h.inputs]
    rfl
  have hdims := hconcat.symm.trans (hjoin.trans (joinSizes_eq (hlen s mem_cons_self)
    fun s' hs' => hlen s' (mem_cons_of_mem _ hs')))
  rw [Except.ok.injEq] at hdims
  have ha := hlen s mem_cons_self
  refine ⟨by simp [hdims, ha], fun s' hs' k hk => ?_⟩
  rw [← h.agree s mem_cons_self s' hs' k hk, hdims]
  simp [getD_eq_getElem?_getD, getElem?_set_ne hk.symm]

def joinLayer (axis : Int) (out : List Int) : DraftLayer :=
  { layer := { op := "Concat", attrs := .ofList [("axis", .int axis), ("_output_shapes", .list { shapes := [out] })] } }

theorem JoinedBy.concatLayer_eq (h : JoinedBy g i a ss t) :
    concatLayer g i = .ok [joinLayer ([2, 3, 1, 0].getD a 0) (image t)] := by
  obtain ⟨l, hl, hax⟩ := h.setting
  obtain ⟨hnamed, hlen⟩ := h.images t mem_cons_self
  have hfits (k : Nat) (hk : k < 4) : fitsInt64 (t.dims.getD k 0) := by
    rw [getD_eq_getElem?_getD, getElem?_eq_getElem (by omega)]
    exact h.bounded _ (getElem_mem _)
  have hint64 : (image t).mapM int64 = .ok ((image t).map id) := mapM_eq_map fun d hd => if_pos (by
    simp only [image, mem_cons, not_mem_nil, or_false] at hd
    rcases hd with rfl | rfl | rfl | rfl
    · decide
    · exact hfits 2 (by decide)
    · exact hfits 3 (by decide)
    · exact hfits 1 (by decide))
  have hattr : outputAttr (g.node i) = .ok ("_output_shapes", .list [.shape (image t)]) := by
    simp [outputAttr, Node.knownSizes, h.sizes, orFault, imageShape_eq hnamed hlen, shapeValue, hint64, bind,
      Except.bind,
      pure, Except.pure]
  obtain ⟨hlow, hhigh⟩ := h.axis
  have hnth : Value.nth ([2, 3, 1, 0] : List Int) a = .ok ([2, 3, 1, 0].getD a 0) := by interval_cases a <;> rfl
  rw [concatLayer, ok_bind hl, hax, ok_bind hnth, oneLayer, ok_bind hattr]
  interval_cases a <;> rfl

/-- The written axis and shape fit together, except where several layers are joined along their widths. -/
theorem concat_consistent_iff (h : JoinedBy g i a ss t) (hne : ss ≠ []) :
    ∃ (l : DraftLayer) (axis : Nat) (out : List Int) (ins : List (List Int)), concatLayer g i = .ok [l] ∧
      l.layer.attr "axis" = .int axis ∧ l.layer.shapes "_output_shapes" = [out] ∧ ss.mapM imageShape = .ok ins ∧
      (Consistent axis out ins ↔ a ≠ 3 ∨ ss.length = 1) := by
  have hins : ss.mapM imageShape = .ok (ss.map image) := mapM_eq_map fun s hs =>
    have ⟨hnamed, hlen⟩ := h.images s (mem_cons_of_mem _ hs)
    imageShape_eq hnamed hlen
  obtain ⟨hsum, hsame⟩ := h.extent hne
  have hothers {x : Nat} (hx : ∀ k ≤ 3, 1 ≤ k → k ≠ x → [0, 2, 3, 1].getD k 0 ≠ a) (k : Nat) (hk : 1 ≤ k)
    (hkx : k ≠ x) :
      ∀ r ∈ ss.map image, (image t)[k]? = r[k]? := by
    intro r hr
    obtain ⟨s, hs, rfl⟩ := mem_map.mp hr
    rcases Nat.lt_or_ge 3 k with hk4 | hk3
    · have hnone (s : Sizes) : (image s)[k]? = none := getElem?_eq_none hk4
      rw [hnone, hnone]
    · have hplace := hsame s hs _ (hx k hk3 hk hkx)
      interval_cases k
      all_goals exact congrArg some hplace
  obtain ⟨hlow, hhigh⟩ := h.axis
  refine ⟨_, [2, 3, 1, 0].getD a 0, image t, ss.map image, h.concatLayer_eq, by interval_cases a <;> rfl, rfl, hins, ?_⟩
  rw [Consistent, map_map]
  interval_cases a
  · exact iff_of_true ⟨congrArg some hsum, hothers (by decide)⟩ (.inl (by decide))
  · exact iff_of_true ⟨congrArg some hsum, hothers (by decide)⟩ (.inl (by decide))
  · constructor
    · -- every input adds `-1` to the extent of the batch
      rintro ⟨hbatch, -⟩
      have hcount : -1 = (ss.map fun _ => -1).sum := Option.some.inj hbatch
      simp at hcount
      omega
    · intro hone
      obtain ⟨s, rfl⟩ := length_eq_one_iff.mp (hone.resolve_left (by decide))
      have heq : image t = image s := by
        have hwidth : t.dims.getD 3 0 = s.dims.getD 3 0 := by simpa using hsum
        have hrest := hsame s mem_cons_self
        rw [image, image, hrest 2 (by decide), hwidth, hrest 1 (by decide)]
      rw [heq]
      exact ⟨rfl, fun k _ _ r hr => by rw [mem_singleton.mp hr]⟩

end

/-- Two images joined along their widths. -/
def wideNet : Net := {
  pool := #[
    { name := "x", kind := some "Data", children := [1, 1], sizes := some { dims := [1, 2, 4, 5] } },
    { name := "c", kind := some "Concat", parents := [(0, 0), (0, 0)], sizes := some { dims := [1, 2, 4, 10] }
      spec := some { name := "c", type := .named "Concat", concatAxis := 3 } }]
  members := [0, 1] }

theorem concat_consistent_iff_widths : ∃ l axis out ins, concatLayer wideNet 1 = .ok [l] ∧
    l.layer.attr "axis" = .int (axis : Nat) ∧ l.layer.shapes "_output_shapes" = [out] ∧ ¬Consistent axis out ins := by
  have hjoined : JoinedBy wideNet 1 3 (replicate 2 { dims := [1, 2, 4, 5] })
      { dims := [1, 2, 4, 10] } :=
    ⟨rfl, ⟨_, rfl, rfl⟩, by decide, rfl, by simp, by simp, rfl, rfl, by decide⟩
  obtain ⟨l, axis, out, ins, hl, haxis, hout, -, hiff⟩ := concat_consistent_iff hjoined (by simp)
  exact ⟨l, axis, out, ins, hl, haxis, hout, fun h => absurd (hiff.mp h) (by decide)⟩

end NetBridge.Prototxt
