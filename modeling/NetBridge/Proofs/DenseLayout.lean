import NetBridge.Proofs.CodeSteps
import NetBridge.Proofs.MatrixLayout
import NetBridge.Prototxt.Arrays
import NetBridge.Source.MxNet
import Mathlib.Data.List.Perm.Subperm

/-!
# The matrix of a dense layer

A symbol and a net keep the matrix of a dense layer with the channels outside the places, a network the other way
round. All sides agree on the order of the rows (`dense_layouts_agree`) if the image has a cell
(`empty_image_refused`).
-/

namespace NetBridge

open List

/-! ## The matrix of a converted dense layer -/

theorem Layer.touch_of_shapes {l : Layer} {name : String} {s : List Int}
    (h : (l.attr name).items.shapes.head? = some s) : l.touch name = l := by
  cases hf : l.attrs.find? name with
  | none => simp [Layer.attr, Table.findD, hf, Attr.items] at h
  | some a =>
    have ha : l.attr name = a := by simp [Layer.attr, Table.findD, hf]
    rw [Layer.touch, ha, Table.insert, Table.insertIn_same hf]

variable {dims : List Int} {path : List Nat}

namespace Source.MxNet

open Run

def ReadsFirst (b : Builder Node State) (k p : Nat) : Prop :=
  ∃ x, (b.layers.getD k {}).inputs.head? = some x ∧ b.own.byName.find? x = some p

def firstShape (b : Builder Node State) (p : Nat) : Option (List Int) :=
  ((b.layers.getD p {}).attr "_output_shapes").items.shapes.head?

/-- Going back from a layer along first inputs, the last layer of the path is the first with more than
two axes. -/
inductive Traced (b : Builder Node State) : List Nat → Nat → List Int → Prop
  | here {k p : Nat} {dims : List Int} : ReadsFirst b k p → firstShape b p = some dims → 2 < dims.length →
      Traced b [p] k dims
  | back {k p : Nat} {path : List Nat} {flat dims : List Int} : ReadsFirst b k p → firstShape b p = some flat →
      flat.length ≤ 2 → Traced b path p dims → Traced b (p :: path) k dims

section
variable {b : Builder Node State} {k p : Nat}

theorem ReadsFirst.unique {q : Nat} (hp : ReadsFirst b k p) (hq : ReadsFirst b k q) : p = q := by
  obtain ⟨x, hx, hp⟩ := hp
  obtain ⟨y, hy, hq⟩ := hq
  cases hx.symm.trans hy
  exact Option.some.inj (hp.symm.trans hq)

theorem firstInput_outcome (h : ReadsFirst b k p) : (firstInput k).outcome b = (.ok p, b) := by
  obtain ⟨x, hx, hp⟩ := h
  refine bind_ok rfl (lift_bind_eq_ok.mpr ⟨x, ?_, ?_⟩)
  · rw [hx]
    rfl
  · refine bind_ok rfl (lift_ok ?_)
    rw [hp]
    rfl

theorem outputDims_run : (outputDims p : Convert (List Int)).outcome b = (orFault Fault.position
    (((b.layers.modify p (·.touch "_output_shapes")).getD p {}).attr "_output_shapes").items.shapes.head?,
    { b with layers := b.layers.modify p (·.touch "_output_shapes") }) := rfl

theorem outputDims_outcome (h : firstShape b p = some dims) :
    (outputDims p : Convert (List Int)).outcome b = (.ok dims, b) := by
  have hsame : b.layers.modify p (·.touch "_output_shapes") = b.layers := by
    refine Array.ext (by simp) fun i hi hi' => ?_
    rw [Array.getElem_modify]
    split
    · rename_i e
      subst e
      exact Layer.touch_of_shapes (by simpa [firstShape, hi'] using h)
    · rfl
  rw [outputDims_run, hsame]
  rw [firstShape] at h
  rw [h, orFault]

theorem Traced.imageBefore_outcome (h : Traced b path k dims) {fuel : Nat} (hfuel : path.length ≤ fuel) :
    (imageBefore fuel k).outcome b = (.ok (dims.getLastD 0 :: dims.dropLast.drop 1), b) := by
  induction h generalizing fuel with
  | here hr hs hlen =>
    cases fuel with
    | zero => simp at hfuel
    | succ fuel =>
      refine bind_ok (firstInput_outcome hr) (bind_ok (outputDims_outcome hs) ?_)
      rw [if_neg (Nat.not_le.mpr hlen)]
      rfl
  | back hr hs hlen _ ih =>
    cases fuel with
    | zero => simp at hfuel
    | succ fuel =>
      refine bind_ok (firstInput_outcome hr) (bind_ok (outputDims_outcome hs) ?_)
      rw [if_pos hlen]
      exact ih (by simpa using hfuel)

theorem firstShape_lt (h : firstShape b p = some dims) : p < b.layers.size := by
  by_contra hp
  simp [firstShape, hp, Layer.attr, Table.findD, Attr.items] at h

theorem Traced.unique {path path' : List Nat} {dims dims' : List Int} (h : Traced b path k dims)
    (h' : Traced b path' k dims') : path = path' := by
  induction h generalizing path' dims' with
  | here hr hs hlen =>
    cases h' with
    | here hr' _ _ => rw [hr.unique hr']
    | back hr' hs' hlen' _ =>
      obtain rfl := hr.unique hr'
      cases hs.symm.trans hs'
      omega
  | back hr hs hlen _ ih =>
    cases h' with
    | here hr' hs' hlen' =>
      obtain rfl := hr.unique hr'
      cases hs.symm.trans hs'
      omega
    | back hr' _ _ hrest' =>
      obtain rfl := hr.unique hr'
      rw [ih hrest']

theorem Traced.of_mem (h : Traced b path k dims) {q : Nat} (hq : q ∈ path) :
    firstShape b q = some dims ∧ 2 < dims.length ∨ ∃ rest, Traced b rest q dims ∧ rest.length < path.length := by
  induction h with
  | here _ hs hlen =>
    rw [mem_singleton.mp hq]
    exact .inl ⟨hs, hlen⟩
  | back _ _ _ hrest ih =>
    rcases mem_cons.mp hq with rfl | hq
    · exact .inr ⟨_, hrest, by simp⟩
    · rcases ih hq with hend | ⟨rest, hrest', hlt⟩
      · exact .inl hend
      · exact .inr ⟨rest, hrest', by simp; omega⟩

/-- No layer is passed twice, since the way back from it is the same each time. -/
theorem Traced.nodup (h : Traced b path k dims) : path.Nodup := by
  induction h with
  | here => exact nodup_singleton _
  | back _ hs hlen hrest ih =>
    refine nodup_cons.mpr ⟨fun hp => ?_, ih⟩
    rcases hrest.of_mem hp with ⟨hs', hlen'⟩ | ⟨rest, hrest', hlt⟩
    · cases hs.symm.trans hs'
      omega
    · rw [hrest.unique hrest'] at hlt
      omega

theorem Traced.length_le (h : Traced b path k dims) : path.length ≤ b.layers.size := by
  have hsub : path ⊆ range b.layers.size := by
    have hlt : ∀ q ∈ path, q < b.layers.size := by
      induction h with
      | here _ hs _ => simpa using firstShape_lt hs
      | back _ hs _ _ ih => exact forall_mem_cons.mpr ⟨firstShape_lt hs, ih⟩
    exact fun q hq => mem_range.mpr (hlt q hq)
  simpa using (subperm_of_subset h.nodup hsub).length_le

theorem denseMatrix_outcome {ds : List Nat} {channels outputs : Nat} {n : Int} {W : Tensor}
    (hds : ds ≠ []) (hshape : W.shape = [outputs, channels * volume ds])
    (htrace : Traced b path k (n :: (ds ++ [channels]).map Int.ofNat)) :
    ∃ t V, W.transpose [1, 0] = .ok t ∧ (denseMatrix k t).outcome b = (.ok V, b) ∧
      Relaid channels (volume ds) outputs W V := by
  obtain ⟨t, V, ht, htshape, hV, t₁, t₂, h₁, h₂, h₃⟩ := exists_relaid hshape
  refine ⟨t, V, ht, ?_, hV⟩
  · have himage := htrace.imageBefore_outcome (Nat.le_succ_of_le htrace.length_le)
    refine bind_ok rfl (bind_ok himage ?_)
    have himg : (n :: (ds ++ [channels]).map Int.ofNat).getLastD 0 ::
        (n :: (ds ++ [channels]).map Int.ofNat).dropLast.drop 1 = (channels :: ds).map Int.ofNat := by
      have hlast : (n :: (ds ++ [channels]).map Int.ofNat) = (n :: ds.map Int.ofNat) ++ [Int.ofNat channels] := by
        simp
      rw [hlast, getLastD_concat, dropLast_concat]
      rfl
    rw [himg]
    have hcolumns : t.shape.getD 1 0 = outputs := by rw [htshape]; rfl
    have horder : ((range ((channels :: ds).map Int.ofNat).length).drop 1).map Int.ofNat ++
        [0, Int.ofNat ((channels :: ds).map Int.ofNat).length] = (placesFirst ds.length).map Int.ofNat := by
      simp [placesFirst, range_succ_eq_map]
    refine lift_bind_eq_ok.mpr ⟨t₁, ?_, bind_eq_ok.mpr ⟨(), b, ?_, ?_⟩⟩
    · rw [hcolumns, ← h₁]
      simp
    · have hpos := length_pos_iff.mpr hds
      simp [hpos]
      rfl
    · refine lift_bind_eq_ok.mpr ⟨t₂, ?_, lift_ok h₃⟩
      rw [← h₂, ← horder]
      rfl

end

end Source.MxNet

/-! ## The matrix of a dense layer in generated code -/

section
variable {ds : List Nat} {channels outputs : Nat} {n : Int} {W V : Tensor}

theorem relayRows_outcome (hds : ds ≠ []) (hpos : 0 < channels * volume ds)
    (hshape : W.shape = [outputs, channels * volume ds])
    (hV : Relaid channels (volume ds) outputs W V) :
    ∃ t, Code.relayRows (n :: (ds ++ [channels]).map Int.ofNat) V = .ok t ∧ t.transpose [1, 0] = .ok W := by
  obtain ⟨t₁, t₂, t, h₁, h₂, h₃, helem, htshape, htcell⟩ := relay_channelsFirst hpos hV.shape
  obtain ⟨u, hu, huelem, hushape, hucell⟩ := Tensor.transpose_matrix (htshape.trans hV.shape)
  refine ⟨t, ?_, ?_⟩
  · have hlong : (n :: (ds ++ [channels]).map Int.ofNat).length > 2 := by
      have := length_pos_iff.mpr hds
      simp
      omega
    have horder : Code.flatChannelsFirst (n :: (ds ++ [channels]).map Int.ofNat).length =
        (channelsFirst ds.length).map Int.ofNat := by
      simp [Code.flatChannelsFirst, channelsFirst]
      omega
    rw [Code.relayRows, if_pos hlong, horder]
    simp only [drop_succ_cons, drop_zero, h₁, bind, Except.bind, h₂, h₃]
  · rw [hu]
    congr 1
    refine Tensor.ext_cells (huelem.trans (helem.trans hV.elem)) hushape hshape fun o ho r hr => ?_
    rw [hucell r hr o ho]
    -- the column of a channel and a place
    have hr' : r < volume ds * channels := by rwa [Nat.mul_comm]
    obtain ⟨c, s, hc, hs, rfl⟩ := row_split hr'
    rw [htcell s hs c hc o ho, hV.cell s hs c hc o ho]

end

namespace Code

open Run

structure DenseAt (s : Scope) (v : Vertex Layer) (shape : List Int) (V : Tensor) : Prop where
  source : ∃ p rest, (denseSource v).outcome s = (.ok p, s) ∧ p.item.shapes "_output_shapes" = shape :: rest
  matrix : ∃ own, s.weights.find? v.name = some own ∧ own.find? "weights" = some (.array V)

section
variable {s : Scope} {v p : Vertex Layer} {shape : List Int} {W V t : Tensor}

theorem outputShape_outcome {rest : List (List Int)} (h : p.item.shapes "_output_shapes" = shape :: rest) :
    (outputShape p).outcome s = (.ok shape, s) := by
  unfold outputShape
  rw [h]
  rfl

theorem layerWeights_outcome {name : String} {own : Table Value} (h : s.weights.find? name = some own) :
    (layerWeights name).outcome s = (.ok own, s) := by
  refine bind_ok rfl (lift_ok ?_)
  rw [Table.get, h]

theorem weight_outcome (h : DenseAt s v shape V) : (weight v.name "weights").outcome s = (.ok V, s) := by
  obtain ⟨own, hown, hV⟩ := h.matrix
  refine bind_ok (layerWeights_outcome hown) (bind_eq_ok.mpr ⟨.array V, s, ?_, rfl⟩)
  exact lift_ok (by rw [Table.get, hV])

theorem denseMatrix_outcome (h : DenseAt s v shape V) (ht : relayRows shape V = .ok t)
    (hW : t.transpose [1, 0] = .ok W) : (denseMatrix v).outcome s = (.ok W, s) := by
  obtain ⟨p, rest, hp, hrest⟩ := h.source
  refine bind_ok hp (bind_ok (outputShape_outcome hrest) ?_)
  refine bind_ok (weight_outcome h) (lift_bind_ok ht ?_)
  exact lift_ok hW

end

end Code

theorem Target.MxNet.dense_stores {s s' : Code.Scope} {v : Vertex Layer} {shape : List Int} {W V t : Tensor}
    {ls : List Code.Line} (h : Code.DenseAt s v shape V) (hloaded : s.loaded = true)
    (ht : Code.relayRows shape V = .ok t) (hW : t.transpose [1, 0] = .ok W)
    (hrun : (Target.MxNet.dense v).outcome s = (.ok ls, s')) :
    s'.arrays.find? (v.name ++ "_weight") = some (.array W) := by
  obtain ⟨p, rest, hp, hrest⟩ := h.source
  obtain ⟨own, hown, hV⟩ := h.matrix
  have harray : Target.MxNet.arrayOf own "weights" = .ok V := by
    simp [Target.MxNet.arrayOf, Table.get, hV, bind, Except.bind, pure, Except.pure]
  refine Run.Triple.known (R := fun _ s' => s'.arrays.find? (v.name ++ "_weight") = some (.array W)) rfl ?_
    s rfl ls s' hrun
  simp only [hloaded]
  refine .known (Code.layerWeights_outcome hown) (.known hp (.known (Code.outputShape_outcome hrest) ?_))
  refine .known (Run.lift_eq_ok.mpr ⟨harray, rfl⟩) (.known (Run.lift_eq_ok.mpr ⟨ht, rfl⟩) ?_)
  refine .known (Run.lift_eq_ok.mpr ⟨hW, rfl⟩) (.known rfl ?_)
  let P (s : Code.Scope) : Prop := s.arrays.find? (v.name ++ "_weight") = some (.array W)
  refine Run.Triple.pre (P := P) ?_ (fun s hs => by rw [hs]; simp [P])
  split
  · refine .bind (.bind Run.keeps_lift fun bias => .modify fun s hs => ?_) fun _ =>
      .look fun _ => Run.keeps_pure
    -- the bias is filed under another name
    have hne : v.name ++ "_bias" ≠ v.name ++ "_weight" := fun e => by simp at e
    simpa [P] using hs
  · exact .look fun _ => Run.keeps_pure

/-! ## The matrix of an inner product -/

namespace Prototxt

structure ProductOver (g : Net) (i : Nat) (batch : Int) (channels height width : Nat) : Prop where
  kind : (g.node i).kind = some "InnerProduct"
  sizes : ∃ p o, (g.node i).parents = [(p, o)] ∧ (g.node p).sizes = some { dims := [batch, channels, height, width] }

theorem relaidArray_outcome {g : Net} {i : Nat} {batch : Int} {channels height width outputs : Nat} {W : Tensor}
    (h : ProductOver g i batch channels height width)
    (hshape : W.shape = [outputs, channels * volume [height, width]]) :
    ∃ V, relaidArray g i W [1, 0] = .ok V ∧ Relaid channels (volume [height, width]) outputs W V := by
  obtain ⟨p, o, hparents, hsizes⟩ := h.sizes
  have honly : g.onlyParent i = .ok (p, o) := by rw [Net.onlyParent, hparents]
  have himage : readsImage g i = .ok (decide (1 < height) || decide (1 < width)) := by
    simp only [readsImage, honly, hsizes, known, orFault, Sizes.height, Sizes.width, Sizes.axis, bind, Except.bind,
      pure, Except.pure]
    by_cases hh : 1 < height <;> simp [hh]
  have hin : g.inputSizes i = .ok (some { dims := [batch, channels, height, width] }) := by
    simp only [Net.inputSizes, honly, hsizes, bind, Except.bind, pure, Except.pure]
  have hrows : W.shape[0]? = some outputs := by rw [hshape]; rfl
  have hcolumns : W.shape[1]? = some (channels * volume [height, width]) := by rw [hshape]; rfl
  by_cases hspatial : 1 < height ∨ 1 < width
  · obtain ⟨t₁, t₂, V, h₁, h₂, h₃, hV⟩ := relay_image hshape
    refine ⟨V, ?_, hV⟩
    have htest : (decide (1 < height) || decide (1 < width)) = true := by simpa using hspatial
    have hrelay : relayImage W channels height width = .ok V := by
      simp only [relayImage, hrows, hcolumns, orFault, bind, Except.bind]
      rw [show W.reshape [Int.ofNat outputs, channels, height, width] = .ok t₁ from h₁]
      simp only
      rw [show t₁.transpose [2, 3, 1, 0] = .ok t₂ from h₂]
      exact h₃
    simp only [relaidArray, h.kind, himage, hin, htest, hrows]
    exact hrelay
  · obtain ⟨V, hV, helem, hVshape, hcell⟩ := Tensor.transpose_matrix hshape
    have htest : (decide (1 < height) || decide (1 < width)) = false := by simpa using hspatial
    refine ⟨V, ?_, helem, hVshape, fun s hs c hc o ho => ?_⟩
    · simp only [relaidArray, h.kind, himage, htest]
      exact hV
    · -- an image of one place
      have hone : volume [height, width] = 1 := by
        simp only [volume] at hs ⊢
        have hh : height = 1 := by
          rcases Nat.eq_zero_or_pos height with rfl | hpos
          · simp at hs
          · omega
        have hw : width = 1 := by
          rcases Nat.eq_zero_or_pos width with rfl | hpos
          · simp at hs
          · omega
        rw [hh, hw]
      rw [hone] at hs ⊢
      obtain rfl : s = 0 := by omega
      simpa using hcell o ho c (by rwa [hone, Nat.mul_one])

end Prototxt

/-! ## All sides -/

/-- **Dense layers keep their matrix.** For a matrix `W` over an image of channels and places there is one
matrix `V` with the rows of the places outside those of the channels. The conversion of a symbol makes `V`
of `W`, and so does the conversion of a net, whether or not the image counts as one. Generated code makes `W`
of `V` again if the image has a cell. -/
theorem dense_layouts_agree {ds : List Nat} {channels outputs : Nat} {W : Tensor} (hds : ds ≠ [])
    (hshape : W.shape = [outputs, channels * volume ds]) :
    ∃ V, Relaid channels (volume ds) outputs W V ∧
      (∀ b path k n, Source.MxNet.Traced b path k (n :: (ds ++ [channels]).map Int.ofNat) →
        ∃ t, W.transpose [1, 0] = .ok t ∧ (Source.MxNet.denseMatrix k t).outcome b = (.ok V, b)) ∧
      (0 < channels * volume ds → ∀ n : Int,
        (∃ t, Code.relayRows (n :: (ds ++ [channels]).map Int.ofNat) V = .ok t ∧ t.transpose [1, 0] = .ok W) ∧
        (∀ s v, Code.DenseAt s v (n :: (ds ++ [channels]).map Int.ofNat) V →
          (Code.denseMatrix v).outcome s = (.ok W, s)) ∧
        ∀ s v ls s', Code.DenseAt s v (n :: (ds ++ [channels]).map Int.ofNat) V → s.loaded = true →
          (Target.MxNet.dense v).outcome s = (.ok ls, s') →
          s'.arrays.find? (v.name ++ "_weight") = some (.array W)) ∧
      ∀ height width, ds = [height, width] → ∀ g i batch, Prototxt.ProductOver g i batch channels height width →
        Prototxt.relaidArray g i W [1, 0] = .ok V := by
  obtain ⟨-, V, -, -, hV, -⟩ := exists_relaid hshape
  refine ⟨V, hV, ?_, fun hpos n => ?_, ?_⟩
  · intro b path k n htrace
    obtain ⟨t, V', ht, hrun, hV'⟩ := Source.MxNet.denseMatrix_outcome hds hshape htrace
    obtain rfl := hV'.unique hV
    exact ⟨t, ht, hrun⟩
  · obtain ⟨t, ht, hW⟩ := relayRows_outcome hds hpos hshape hV
    refine ⟨⟨t, ht, hW⟩, fun s v h => Code.denseMatrix_outcome h ht hW, fun s v ls s' h hloaded hrun => ?_⟩
    exact Target.MxNet.dense_stores h hloaded ht hW hrun
  · rintro height width rfl g i batch h
    obtain ⟨V', hrun, hV'⟩ := Prototxt.relaidArray_outcome h hshape
    obtain rfl := hV'.unique hV
    exact hrun

def wideMatrix : Tensor :=
  ⟨.int64, [2, 6], #[.int 0, .int 1, .int 2, .int 3, .int 4, .int 5,
    .int 6, .int 7, .int 8, .int 9, .int 10, .int 11], rfl⟩

def tallMatrix : Tensor :=
  ⟨.int64, [6, 2], #[.int 0, .int 6, .int 3, .int 9, .int 1, .int 7,
    .int 4, .int 10, .int 2, .int 8, .int 5, .int 11], rfl⟩

def flattenedImage : List Layer := [
  { name := "x", op := "DataInput", attrs := .ofList [("_output_shapes", .list { shapes := [[1, 3, 1, 2]] })] },
  { name := "f", op := "Flatten", inputs := ["x"]
    attrs := .ofList [("_output_shapes", .list { shapes := [[1, 6]] })] },
  { name := "d", op := "FullyConnected", inputs := ["f"] }]

def flattenedBuilder : Source.Builder Source.MxNet.Node Source.MxNet.State :=
  { layers := flattenedImage.toArray, own := { byName := .ofList [("x", 0), ("f", 1), ("d", 2)] } }

def flattenedVertices : List (Vertex Layer) := [
  { name := "x", item := flattenedImage.getD 0 {}, targets := ["f"] },
  { name := "f", item := flattenedImage.getD 1 {}, sources := ["x"], targets := ["d"] },
  { name := "d", item := flattenedImage.getD 2 {}, sources := ["f"] }]

def flattenedScope : Code.Scope :=
  { graph := { network := { layers := flattenedImage }
               graph := { vertices := .ofList (flattenedVertices.map fun v => (v.name, v)) } }
    weights := .ofList [("d", .ofList [("weights", .array tallMatrix)])]
    loaded := true }

def productNet : Prototxt.Net :=
  { pool := #[{ name := "x", kind := some "Data", children := [1], sizes := some { dims := [1, 2, 3, 1] } },
      { name := "d", kind := some "InnerProduct", parents := [(0, 0)] }]
    members := [0, 1] }

theorem dense_layouts_agree_flattened :
    (∃ t, wideMatrix.transpose [1, 0] = .ok t ∧
      (Source.MxNet.denseMatrix 2 t).outcome flattenedBuilder = (.ok tallMatrix, flattenedBuilder)) ∧
    (Code.denseMatrix { name := "d", item := flattenedImage.getD 2 {}, sources := ["f"] }).outcome flattenedScope =
      (.ok wideMatrix, flattenedScope) ∧
    Prototxt.relaidArray productNet 1 wideMatrix [1, 0] = .ok tallMatrix := by
  have htall : Relaid 2 3 2 wideMatrix tallMatrix := by
    refine ⟨rfl, rfl, ?_⟩
    intro s hs c hc o ho
    have hs : s = 0 ∨ s = 1 ∨ s = 2 := by omega
    have hc : c = 0 ∨ c = 1 := by omega
    have ho : o = 0 ∨ o = 1 := by omega
    rcases hs with rfl | rfl | rfl <;> rcases hc with rfl | rfl <;> rcases ho with rfl | rfl <;> rfl
  have hshape : wideMatrix.shape = [2, 2 * volume [3, 1]] := rfl
  obtain ⟨V, hV, hsymbol, hcode, hnet⟩ := dense_layouts_agree (by decide) hshape
  obtain rfl := htall.unique hV
  refine ⟨hsymbol flattenedBuilder [1, 0] 2 1 ?_, (hcode (by decide) 1).2.1 _ _ ?_, hnet 3 1 rfl productNet 1 1 ?_⟩
  · exact .back ⟨"f", rfl, rfl⟩ rfl (by decide) (.here ⟨"x", rfl, rfl⟩ rfl (by decide))
  · exact ⟨⟨_, _, rfl, rfl⟩, ⟨_, rfl, rfl⟩⟩
  · exact ⟨rfl, 0, 0, rfl, rfl⟩

theorem empty_image_refused :
    Relaid 3 0 2 ⟨.int64, [2, 0], #[], rfl⟩ ⟨.int64, [0, 2], #[], rfl⟩ ∧
      Code.relayRows [1, 0, 2, 3] ⟨.int64, [0, 2], #[], rfl⟩ = .error Fault.value :=
  ⟨⟨rfl, rfl, nofun⟩, rfl⟩

end NetBridge
