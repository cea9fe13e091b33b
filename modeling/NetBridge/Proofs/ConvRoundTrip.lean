import NetBridge.Proofs.AxisNumbers
import NetBridge.Proofs.ConvLayer
import NetBridge.Proofs.SpatialPads

/-!
# Convolutions there and back

A convolution of a symbol becomes a layer, and the code of the layer sets the convolution up again. All comes back as
it was, unless there are as many groups as channels: then the filters are counted for each channel, and the first two
axes of the kernel are exchanged (`convolution_round_trip`).
-/

namespace NetBridge

open List

/-! ## Kernels -/

open Source.MxNet (kernelLast)
open Target.MxNet (kernelOrder)

def lastSwapped (n : Nat) : List Nat := List.range n ++ [n + 1, n]

def firstSwapped (n : Nat) : List Nat := [1, 0] ++ (List.range n).map (· + 2)

section
variable {n : Nat} (hn : n = 1 ∨ n = 2 ∨ n = 3)
include hn

theorem axisOrder_lastSwapped : AxisOrder (n + 2) (lastSwapped n) := by rcases hn with rfl | rfl | rfl <;> decide

theorem axisOrder_firstSwapped : AxisOrder (n + 2) (firstSwapped n) := by rcases hn with rfl | rfl | rfl <;> decide

theorem outward_swapped_inward : composed (composed (inward n) (lastSwapped n)) (outward n) = firstSwapped n := by
  rcases hn with rfl | rfl | rfl <;> decide

variable {t : Tensor} (ht : t.cells.rank = n + 2)
include ht

theorem kernelLast_eq : kernelLast n t = .ok (t.reordered (inward n)) := by
  have h := Tensor.transpose_reordered (ht ▸ axisOrder_inward n)
  rcases hn with rfl | rfl | rfl <;> exact h

theorem swapAxes_last : t.swapAxes (-1) (-2) = .ok (t.reordered (lastSwapped n)) := by
  rw [Tensor.swapAxes, Grid.swapAxes, ht]
  rcases hn with rfl | rfl | rfl <;> rfl

theorem swapAxes_first : t.swapAxes 0 1 = .ok (t.reordered (firstSwapped n)) := by
  rw [Tensor.swapAxes, Grid.swapAxes, ht]
  rcases hn with rfl | rfl | rfl <;> rfl

theorem transpose_outward_swapped : ((t.reordered (inward n)).reordered (lastSwapped n)).transpose
    ((outward n).map Int.ofNat) = .ok (t.reordered (firstSwapped n)) := by
  have hin : AxisOrder t.cells.rank (inward n) := ht ▸ axisOrder_inward n
  have hswap : AxisOrder t.cells.rank (lastSwapped n) := ht ▸ axisOrder_lastSwapped hn
  have hout : AxisOrder t.cells.rank (outward n) := ht ▸ axisOrder_outward n
  have hboth := hin.composed hswap
  have hrank : (t.reordered (composed (inward n) (lastSwapped n))).cells.rank = t.cells.rank :=
    Tensor.rank_reordered.trans hboth.length
  rw [Tensor.reordered_reordered hin hswap, Tensor.transpose_reordered (hrank ▸ hout),
    Tensor.reordered_reordered hboth hout, outward_swapped_inward hn]

end

theorem map_firstSwapped (x y : Nat) (xs : List Nat) :
    (firstSwapped xs.length).map (fun a => (x :: y :: xs).getD a 0) = y :: x :: xs := by
  have hmid : (range xs.length).map (fun a => xs[a]?.getD 0) = xs := by
    simpa using map_getD_range rfl
  simp [firstSwapped, Function.comp_def, hmid]

theorem reordered_firstSwapped_eq_iff {t : Tensor} {filters : Nat} {ks : List Nat}
    (hn : ks.length = 1 ∨ ks.length = 2 ∨ ks.length = 3) (hshape : t.shape = filters :: 1 :: ks) :
    t.reordered (firstSwapped ks.length) = t ↔ filters = 1 := by
  have hs : t.cells.shape = filters :: 1 :: ks := hshape
  have hswapped : (t.cells.permute (firstSwapped ks.length)).shape = 1 :: filters :: ks := by
    rw [← map_firstSwapped filters 1 ks, ← hs]
    rfl
  constructor
  · intro h
    have : 1 :: filters :: ks = filters :: 1 :: ks := by
      rw [← hswapped, ← hs]
      exact congrArg (·.cells.shape) h
    exact (cons.inj this).1.symm
  · rintro rfl
    -- a position inside starts with two zeros, so the exchange does not move it
    have hsame : t.cells.permute (firstSwapped ks.length) = t.cells := by
      refine Grid.ext_cells (hswapped.trans hs.symm) fun ix hix => ?_
      rw [hswapped] at hix
      cases hix with
      | cons hi hix =>
        cases hix with
        | cons hj hix =>
          rename_i i j is
          obtain rfl : i = 0 := by omega
          obtain rfl : j = 0 := by omega
          have hrank : t.cells.rank = ks.length + 2 := by simp [Grid.rank, hs]
          have hin : Inside t.cells.shape (0 :: 0 :: is) := hs ▸ .cons hi (.cons hj hix)
          have hmap : (firstSwapped ks.length).map (fun a => (0 :: 0 :: is).getD a 0) = 0 :: 0 :: is := by
            rw [← hix.length_eq, map_firstSwapped]
          have hcell := Grid.cell_permute_order (hrank ▸ axisOrder_firstSwapped hn) hin
          rwa [hmap] at hcell
    rw [Tensor.reordered, hsame]

/-! ## Generated code -/

variable {c : ConvSettings} {channels : Int} {shapes : List (List Int)} {t u : Tensor}

namespace Target.MxNet

open Run
open Code
open Source.MxNet (ConvSettings convLayer)

theorem inner_framed (x y : Int) (xs : List Int) : Value.inner ([x] ++ xs ++ [y]) = xs := by
  simp [Value.inner_eq]

theorem ofFlat_doubled (pad : List Int) :
    Pads.ofFlat (([0] ++ pad ++ [0]) ++ ([0] ++ pad ++ [0])) = .ok (.inner pad) := by
  let half : List Int := [0] ++ pad ++ [0]
  have hlen : half.length = pad.length + 2 := by simp [half]
  have hat {i : Nat} (hi : i < pad.length) : half[i + 1]? = pad[i]? := by
    simp [half, getElem?_append_left hi]
  have hspatial : Padding.spatial (half ++ half) (pad.length + 2) = pad.map fun x => (x, x) := by
    refine ext_getElem (by simp) fun i _ hi => ?_
    have hi : i < pad.length := by simpa using hi
    have hstart : (half ++ half)[i + 1]? = pad[i]? := by
      rw [getElem?_append_left (by omega), hat hi]
    have hend : (half ++ half)[pad.length + 2 + (i + 1)]? = pad[i]? := by
      rw [getElem?_append_right (by omega), hlen, Nat.add_sub_cancel_left, hat hi]
    simp [Padding.spatial, Padding.ofAxis, hstart, hend, hi]
  have hboth : (half ++ half).length = 2 * (pad.length + 2) := by rw [length_append, hlen, Nat.two_mul]
  rw [ofFlat_eq (by omega) hboth, hspatial]
  simp [Function.comp_def]

def convLine (w : Vertex Layer) (x : String) (c : ConvSettings) (filters : Int) (layout : String) : Line :=
  .assign 1 w.variableName ["mx.sym.", "Convolution", "(data=", .use x, ", kernel=", intTuple c.kernel, ", stride=",
    intTuple c.stride, ", dilate = (", joined ", " c.dilate, ")", ", pad=", intTuple c.pad, ", num_filter = ",
    toString filters, ", num_group = ", toString c.groups, ", no_bias = ", boolText (!c.bias), ", layout = '", layout,
    "', name = '", w.name, "')"]

def withArrays (arrays : Table Value) (name : String) (takesBias : Bool) (t u : Tensor) : Table Value :=
  (if takesBias then arrays.insert (name ++ "_bias") (.array u) else arrays).insert (name ++ "_weight") (.array t)

def codeFilters (c : ConvSettings) (channels : Int) : Int :=
  if c.groups = channels then c.filters * channels else c.filters

def kindOf (c : ConvSettings) (channels : Int) : ConvKind := if c.groups = channels then .depthwise else .plain

section
variable {s : Scope} {w p : Vertex Layer} {name : String} {inputs : List String} {shape : List Int} {own : Table Value}
  {n : Nat}

theorem padsOf_outcome (hitem : w.item = convLayer c channels name inputs (shape :: shapes)) :
    (padsOf w).outcome s = (.ok (.inner c.pad), s) := by
  unfold padsOf
  rw [hitem]
  refine bind_ok (outputShape_outcome (by rw [hitem]; rfl)) (lift_ok ?_)
  exact ofFlat_doubled c.pad

theorem layoutName_eq (hn : n = 1 ∨ n = 2 ∨ n = 3) : ∃ layout, layoutName n = .ok layout := by
  rcases hn with rfl | rfl | rfl <;> exact ⟨_, rfl⟩

theorem groups_kindOf (hitem : w.item = convLayer c channels name inputs shapes) :
    (kindOf c channels).groups w.item = .ok (.int c.groups) := by
  rw [hitem, kindOf, ConvKind.groups]
  by_cases hg : c.groups = channels
  · rw [if_pos hg]
    show (Value.nth (c.kernel ++ [channels, c.filters]) (-2)).map Value.int = _
    have hback : Value.nth (c.kernel ++ [channels, c.filters]) (-2) = .ok channels :=
      Value.nth_back c.kernel channels [c.filters]
    rw [hback, hg]
    rfl
  · rw [if_neg hg]
    rfl

theorem conv_outcome {layout : String} {kernel weight : Tensor}
    (hitem : w.item = convLayer c channels name inputs (shape :: shapes))
    (hloaded : s.loaded = true) (hown : s.weights.find? w.name = some own)
    (hkernel : own.find? "weights" = some (.array kernel))
    (hbias : c.bias = true → own.find? "bias" = some (.array u))
    (hp : s.graph.graph.parent w.name [0] = .ok (some p))
    (hweight : (kindOf c channels).arrange c.kernel.length kernel = .ok weight)
    (hlayout : layoutName c.kernel.length = .ok layout) :
    (conv (kindOf c channels) w).outcome s =
      (.ok [convLine w p.variableName c (codeFilters c channels) layout],
        { s with arrays := withArrays s.arrays w.name c.bias weight u }) := by
  have harray : arrayOf own "weights" = .ok kernel := by
    simp [arrayOf, Table.get, hkernel, bind, Except.bind, pure, Except.pure]
  have hlast : kindOf c channels ≠ .transposed := by
    unfold kindOf
    split <;> decide
  have hfunction : (kindOf c channels).function = "Convolution" := by
    unfold kindOf
    split <;> rfl
  refine bind_ok rfl ?_
  extract_lets loaded shape dim spatial strides dilations window afterOwn
  have hloaded : loaded = true := hloaded
  have hshape : shape = c.kernel ++ [channels, c.filters] := by simp only [shape, hitem]; rfl
  have hdim : dim = c.kernel.length := by simp [dim, hshape]
  have hspatial : spatial = c.kernel := by simp [spatial, hdim, hshape]
  have hstrides : strides = c.stride := by
    simp only [strides, hitem]
    exact inner_framed 1 1 c.stride
  have hdilations : dilations = c.dilate := by
    simp only [dilations, hitem]
    exact inner_framed 1 1 c.dilate
  rw [if_pos hloaded]
  refine bind_ok (layerWeights_outcome hown) ?_
  unfold afterOwn
  extract_lets afterArray
  rw [if_pos hloaded]
  refine lift_bind_ok harray ?_
  refine bind_ok (padsOf_outcome hitem) (lift_bind_eq_ok.mpr ⟨c.filters, ?_, ?_⟩)
  · rw [if_neg hlast, hshape]
    simpa using Value.nth_back (c.kernel ++ [channels]) c.filters []
  refine lift_bind_eq_ok.mpr ⟨.bool c.bias, by rw [hitem]; rfl, ?_⟩
  extract_lets useBias afterBias
  -- the rest of the code is the same with and without a bias
  let s₁ : Scope := { s with arrays := if c.bias then s.arrays.insert (w.name ++ "_bias") (.array u) else s.arrays }
  have hrest : (afterBias ()).outcome s₁ = (.ok [convLine w p.variableName c (codeFilters c channels) layout],
      { s with arrays := withArrays s.arrays w.name c.bias weight u }) := by
    refine lift_bind_ok (groups_kindOf hitem) ?_
    extract_lets filters rest afterStored
    have hfilters : filters = codeFilters c channels := by
      by_cases hg : c.groups = channels
      · simp [filters, codeFilters, kindOf, hg]
      · simp [filters, codeFilters, kindOf, hg]
    rw [if_pos hloaded]
    refine lift_bind_ok harray ?_
    refine lift_bind_eq_ok.mpr ⟨weight, by rw [hdim, hweight], ?_⟩
    refine bind_ok rfl (bind_ok ((by refine bind_ok (bind_ok rfl (lift_bind_ok hp rfl)) rfl)) ?_)
    refine lift_bind_eq_ok.mpr ⟨layout, by rw [hdim, hlayout], pure_eq_ok.mpr ⟨?_, rfl⟩⟩
    simp only [window, rest, hspatial, hstrides, hdilations, hfunction, hfilters]
    rfl
  by_cases hb : c.bias = true
  · rw [if_pos (by simp [useBias, hb, hloaded, Value.isSet])]
    refine bind_eq_ok.mpr ⟨(), s₁, lift_bind_eq_ok.mpr ⟨.array u, ?_, ?_⟩, hrest⟩
    · rw [Table.get, hbias hb]
    · simp only [s₁, hb]
      rfl
  · rw [if_neg (by simp [useBias, hb, Value.isSet])]
    have hs₁ : s₁ = s := by simp [s₁, hb]
    exact hs₁ ▸ hrest

theorem layerLines_eq (hitem : w.item = convLayer c channels name inputs shapes) (hsources : w.sources ≠ []) :
    layerLines w = conv (kindOf c channels) w := by
  have hsome : ¬w.sources.isEmpty = true := by simpa using hsources
  have hop : w.item.op = if c.groups = channels then "DepthwiseConv" else "Conv" := by rw [hitem, convLayer]
  have hrule : rule w.item.op = some (conv (kindOf c channels)) := by
    by_cases hg : c.groups = channels
    · rw [hop, kindOf, if_pos hg, if_pos hg]
      rfl
    · rw [hop, kindOf, if_neg hg, if_neg hg]
      rfl
  have hdata : w.item.op ≠ "DataInput" := by
    rw [hop]
    split <;> decide
  unfold layerLines sourced
  rw [if_neg hsome]
  simp only [ruleOr, hrule, hdata, if_false, pure_bind, bind_pure]

theorem conv_missing {kind : ConvKind} (hloaded : s.loaded = true) (hnone : s.weights.find? w.name = none) :
    (conv kind w).outcome s = (.error Fault.key, s) := by
  have hget : (layerWeights w.name).outcome s = (.error Fault.key, s) := by
    show (s.weights.get w.name Fault.key, s) = _
    rw [Table.get, hnone]
  unfold conv
  rw [outcome_bind]
  show outcome _ s = _
  extract_lets loaded
  rw [if_pos (show loaded = true from hloaded), outcome_bind, hget]

end

end Target.MxNet

/-! ## There and back -/

section

open Source Source.MxNet Target.MxNet
open Code (Scope)
open Run (outcome)

variable {b : Builder Node State} {v : Vertex Node}

theorem find?_withKernel (w : Weights) (name : String) (takesBias : Bool) (kernel u : Tensor) :
    ∃ own, (withKernel w name takesBias kernel u).find? name = some own ∧
      own.find? "weights" = some (.array kernel) ∧ (takesBias = true → own.find? "bias" = some (.array u)) := by
  let own := (w.findD name ∅).insert "weights" (.array kernel)
  cases takesBias with
  | false => exact ⟨own, by simp [withKernel, putWeight, own], by simp [own], by simp⟩
  | true => exact ⟨own.insert "bias" (.array u), by simp [withKernel, putWeight, own], by simp [own], by simp⟩

theorem find?_withKernel_of_ne {w : Weights} {name name' : String} (h : name ≠ name') (takesBias : Bool)
    (kernel u : Tensor) : (withKernel w name takesBias kernel u).find? name' = w.find? name' := by
  cases takesBias <;> simp [withKernel, putWeight, h]

theorem recorded_ne_nil (h : Fed b v channels shapes) : ∃ s rest, shapes = s :: rest := by
  obtain ⟨o, outs, _, hrec⟩ := h.shapes
  rw [mapM_cons] at hrec
  obtain ⟨s, _, hrec⟩ := bind_cases hrec
  obtain ⟨rest, _, ⟨⟩⟩ := bind_cases hrec
  exact ⟨s, rest, rfl⟩

theorem stripped_ne (h : Text.startsWith v.name "_" = true) : v.name ≠ stripped v.name := by
  have hstrip : stripped v.name = String.ofList (v.name.toList.drop 1) := by simp [stripped, ownName?, h, Text.drop]
  intro e
  have hlen := congrArg (·.toList.length) (e.trans hstrip)
  have hempty : v.name.toList = [] := by
    simp only [String.toList_ofList, length_drop] at hlen
    exact eq_nil_of_length_eq_zero (by omega)
  simp [Text.startsWith, hempty, Text.startsWithChars] at h

def codeKernel (c : ConvSettings) (channels : Int) (t : Tensor) : Except Fault Tensor :=
  if c.groups = channels then t.swapAxes 0 1 else .ok t

/-- The layer keeps its kernel with the channels last; the code finds the way back, but for the exchange. -/
theorem arrange_inward (channels : Int)
    (hdim : c.kernel.length = 1 ∨ c.kernel.length = 2 ∨ c.kernel.length = 3)
    (ht : t.cells.rank = c.kernel.length + 2) : (kindOf c channels).arrange c.kernel.length
      (t.reordered (inward c.kernel.length)) = codeKernel c channels t := by
  by_cases hg : c.groups = channels
  · have hrank : (t.reordered (inward c.kernel.length)).cells.rank = c.kernel.length + 2 :=
      Tensor.rank_reordered.trans (axisOrder_inward _).length
    rw [kindOf, codeKernel, if_pos hg, if_pos hg, ConvKind.arrange, swapAxes_last hdim hrank,
      kernelOrder_eq hdim, swapAxes_first hdim ht]
    exact transpose_outward_swapped hdim ht
  · rw [kindOf, codeKernel, if_neg hg, if_neg hg, ConvKind.arrange, kernelOrder_eq hdim]
    exact transpose_outward ht

theorem exists_codeKernel (channels : Int) (hdim : c.kernel.length = 1 ∨ c.kernel.length = 2 ∨ c.kernel.length = 3)
    (ht : t.cells.rank = c.kernel.length + 2) : ∃ weight, codeKernel c channels t = .ok weight := by
  by_cases hg : c.groups = channels
  · exact ⟨_, by rw [codeKernel, if_pos hg, swapAxes_first hdim ht]⟩
  · exact ⟨t, if_neg hg⟩

/-- Nothing has changed exactly if the groups are not taken for channels, or there is nothing to exchange. -/
theorem reproduced_iff {weight : Tensor}
    (hdim : c.kernel.length = 1 ∨ c.kernel.length = 2 ∨ c.kernel.length = 3)
    (hweight : codeKernel c channels t = .ok weight)
    (hshape : t.shape.map Int.ofNat = [c.filters, channels / c.groups] ++ c.kernel) (hfilters : 0 < c.filters)
    (hchannels : 0 < channels) :
    codeFilters c channels = c.filters ∧ weight = t ↔ c.groups ≠ channels ∨ channels = 1 ∧ c.filters = 1 := by
  by_cases hg : c.groups = channels
  · -- a group a channel: the second size of the array is one
    obtain ⟨filters, one, ks, hts⟩ : ∃ a b ks, t.shape = a :: b :: ks := by
      match hts : t.shape with
      | [] | [_] => simp [hts] at hshape
      | a :: b :: ks => exact ⟨a, b, ks, rfl⟩
    rw [hts, hg, Int.ediv_self (by omega)] at hshape
    simp only [map_cons, cons_append, nil_append, cons.injEq] at hshape
    obtain ⟨ha, hone, hks⟩ := hshape
    obtain rfl : one = 1 := by simpa using hone
    have hlen : c.kernel.length = ks.length := by rw [← hks, length_map]
    rw [hlen] at hdim
    have hrank : t.cells.rank = ks.length + 2 := by
      show t.shape.length = _
      rw [hts]
      rfl
    rw [codeKernel, if_pos hg, swapAxes_first hdim hrank] at hweight
    rw [← Except.ok.inj hweight, reordered_firstSwapped_eq_iff hdim hts, codeFilters]
    have hmul : c.filters * channels = c.filters ↔ channels = 1 := by
      rw [mul_eq_left₀ (by omega)]
    have hcount : filters = 1 ↔ c.filters = 1 := by
      rw [← ha]
      simp
    simp [hg, hmul, hcount]
  · rw [codeKernel, if_neg hg] at hweight
    simp [codeFilters, hg, Except.ok.inj hweight]

/-- The code for a convolution that was read has its settings, and its kernel unless it is a depthwise one. With a name
that starts with a low line its weights are not found. -/
theorem convolution_round_trip (hc : Gives v c) (hb : Fed b v channels shapes) (hs : Stored b v c.bias t u)
    (hdim : c.kernel.length = 1 ∨ c.kernel.length = 2 ∨ c.kernel.length = 3)
    (ht : t.shape.length = c.kernel.length + 2) :
    ∃ b' l, (convolution v).outcome b = (.ok (), b') ∧ b'.layers = b.layers.push l ∧
      ∀ (s : Scope) (w p : Vertex Layer), w.item = l → w.name = l.name → w.sources ≠ [] →
        s.graph.graph.parent w.name [0] = .ok (some p) → s.loaded = true →
        s.weights.find? l.name = b'.weights.find? l.name →
        (Text.startsWith v.name "_" = false → ∃ layout weight, w.name = v.name ∧
          codeKernel c channels t = .ok weight ∧
          (layerLines w).outcome s = (.ok [convLine w p.variableName c (codeFilters c channels) layout],
            { s with arrays := withArrays s.arrays v.name c.bias weight u }) ∧
          (t.shape.map Int.ofNat = [c.filters, channels / c.groups] ++ c.kernel → 0 < c.filters → 0 < channels →
            (codeFilters c channels = c.filters ∧ weight = t ↔
              c.groups ≠ channels ∨ channels = 1 ∧ c.filters = 1))) ∧
        (Text.startsWith v.name "_" = true → b.weights.find? l.name = none →
          (layerLines w).outcome s = (.error Fault.key, s)) := by
  obtain ⟨shape, rest, rfl⟩ := recorded_ne_nil hb
  refine ⟨_, _, convolution_outcome hc hb hs (kernelLast_eq hdim ht), rfl, ?_⟩
  intro s w p hitem hname hsources hp hloaded hweights
  have hname : w.name = stripped v.name := hname
  have hweights : s.weights.find? (stripped v.name) = (withKernel b.weights v.name c.bias
    (t.reordered (inward c.kernel.length)) u).find? (stripped v.name) := hweights
  rw [layerLines_eq hitem hsources]
  refine ⟨fun hlow => ?_, fun hlow hnone => ?_⟩
  · have hsame : w.name = v.name := hname.trans ((by simp [stripped, ownName?, hlow]))
    obtain ⟨own, hown, hkernel, hbias⟩ :=
      find?_withKernel b.weights v.name c.bias (t.reordered (inward c.kernel.length)) u
    obtain ⟨layout, hlayout⟩ := layoutName_eq hdim
    obtain ⟨weight, hweight⟩ := exists_codeKernel channels hdim ht
    have hback := (arrange_inward channels hdim ht).trans hweight
    have hfound : s.weights.find? w.name = some own := by rw [hname, hweights, ← hname, hsame, hown]
    refine ⟨layout, weight, hsame, hweight, ?_, reproduced_iff hdim hweight⟩
    rw [← hsame]
    exact conv_outcome hitem hloaded hfound hkernel hbias hp hback hlayout
  · refine conv_missing hloaded ?_
    rw [hname, hweights, find?_withKernel_of_ne (stripped_ne hlow)]
    exact hnone

def pairedNode : Vertex Node where
  name := "c"
  item := { op := some "Convolution", olderSettings := false
            settings := .record [("kernel", .text "(1, 2)"), ("num_filter", .text "2"), ("num_group", .text "2"),
              ("pad", .text "(0, 1)")] }
  sources := ["x"]

def pairedSettings : ConvSettings where
  kernel := [1, 2]
  stride := [1, 1]
  dilate := [1, 1]
  pad := [0, 1]
  filters := 2
  groups := 2
  bias := true
  layout := "NCHW"

def pairedBias : Tensor := ⟨.int64, [2], #[.int 9, .int 10], rfl⟩

def imageBuilder (channels : Int) (kernel : Tensor) : Builder Node State :=
  let image : Layer := { name := "x", op := "DataInput"
                         attrs := .ofList [("_output_shapes", .list { shapes := [[1, 2, 2, channels]] })] }
  let node : Node := { op := some "null", settings := .none, olderSettings := false }
  { graph := { vertices := .ofList [("x", { name := "x", item := node, targets := ["c"] }), ("c", pairedNode)] }
    layers := #[image]
    loaded := true
    own := { shapes := .ofList [("c", [.list [.int 1, .int 2, .int 2, .int 3]])]
             arrays := some (.ofList [("c_weight", kernel), ("c_bias", pairedBias)])
             byName := .ofList [("x", 0)] } }

def pairedLayer (channels : Int) : Layer := convLayer pairedSettings channels "c" ["x"] [[1, 2, 3, 2]]

def pairedVertex (channels : Int) : Vertex Layer := { name := "c", item := pairedLayer channels, sources := ["x"] }

def pairedScope (channels : Int) (weights : Weights) : Scope :=
  let image : Vertex Layer := { name := "x", item := { name := "x", op := "DataInput" }, targets := ["c"] }
  { graph := { network := {}, graph := { vertices := .ofList [("x", image), ("c", pairedVertex channels)] } }
    weights := weights
    loaded := true }

theorem pairedNode_gives : Gives pairedNode pairedSettings :=
  ⟨rfl, rfl, rfl, rfl, rfl, rfl, rfl, rfl, by decide, by decide⟩

theorem imageBuilder_fed {channels : Int} (h : fitsInt64 channels) (kernel : Tensor) :
    Fed (imageBuilder channels kernel) pairedNode channels [[1, 2, 3, 2]] where
  self := ⟨_, rfl, rfl⟩
  sources := by
    intro p hp
    obtain rfl : p = "x" := by simpa [pairedNode] using hp
    exact Table.mem_keys_of_find? rfl
  image := ⟨"x", 0, _, rfl, rfl, rfl, rfl⟩
  fits := h
  shapes := ⟨_, [], rfl, rfl⟩

theorem imageBuilder_stored (channels : Int) (kernel : Tensor) :
    Stored (imageBuilder channels kernel) pairedNode pairedSettings.bias kernel pairedBias :=
  ⟨rfl, _, rfl, rfl, fun _ => rfl⟩

def groupedKernel : Tensor :=
  ⟨.int64, [2, 2, 1, 2], #[.int 1, .int 2, .int 3, .int 4, .int 5, .int 6, .int 7, .int 8], rfl⟩

theorem convolution_round_trip_grouped : ∃ b' layout,
    (convolution pairedNode).outcome (imageBuilder 4 groupedKernel) = (.ok (), b') ∧
    b'.layers = (imageBuilder 4 groupedKernel).layers.push (pairedLayer 4) ∧
    (layerLines (pairedVertex 4)).outcome (pairedScope 4 b'.weights) =
      (.ok [convLine (pairedVertex 4) "x" pairedSettings 2 layout],
        { pairedScope 4 b'.weights with arrays := withArrays ∅ "c" true groupedKernel pairedBias }) := by
  have hfed := imageBuilder_fed (by decide : fitsInt64 4) groupedKernel
  have hstored := imageBuilder_stored 4 groupedKernel
  obtain ⟨b', l, hrun, hlayers, hcode⟩ := convolution_round_trip pairedNode_gives hfed hstored (by decide) rfl
  have hmade : b'.layers = (imageBuilder 4 groupedKernel).layers.push (pairedLayer 4) :=
    congrArg (·.2.layers) (hrun.symm.trans (convolution_outcome pairedNode_gives hfed hstored rfl))
  obtain rfl : l = pairedLayer 4 := Array.push_inj_right.mp (hlayers.symm.trans hmade)
  obtain ⟨layout, weight, _, hweight, hlines, _⟩ :=
    (hcode (pairedScope 4 b'.weights) (pairedVertex 4) _ rfl rfl (by decide) rfl rfl rfl).1 (by decide)
  obtain rfl : groupedKernel = weight := Except.ok.inj hweight
  exact ⟨b', layout, hrun, hmade, hlines⟩

def depthwiseKernel : Tensor := ⟨.int64, [2, 1, 1, 2], #[.int 1, .int 2, .int 3, .int 4], rfl⟩

/-- Two groups of one channel each come back with twice the filters and the first two axes of the kernel
exchanged. -/
theorem depthwise_kernel_exchanged : ∃ b' s' weight layout,
    (convolution pairedNode).outcome (imageBuilder 2 depthwiseKernel) = (.ok (), b') ∧
    b'.layers = (imageBuilder 2 depthwiseKernel).layers.push (pairedLayer 2) ∧
    (layerLines (pairedVertex 2)).outcome (pairedScope 2 b'.weights) =
      (.ok [convLine (pairedVertex 2) "x" pairedSettings 4 layout], s') ∧
    s'.arrays.find? "c_weight" = some (.array weight) ∧ weight.shape = [1, 2, 1, 2] ∧
    depthwiseKernel.shape = [2, 1, 1, 2] := by
  have hrun := convolution_outcome pairedNode_gives (imageBuilder_fed (by decide) depthwiseKernel)
    (imageBuilder_stored 2 depthwiseKernel) (kernelLast_eq (by decide) rfl)
  obtain ⟨weight, hweight⟩ := exists_codeKernel 2 (c := pairedSettings) (t := depthwiseKernel) (by decide) rfl
  have hback := (arrange_inward 2 (t := depthwiseKernel) (by decide) rfl).trans hweight
  have hitem : (pairedVertex 2).item = convLayer pairedSettings 2 "c" ["x"] [[1, 2, 3, 2]] := rfl
  let s := pairedScope 2 (withKernel ∅ "c" true (depthwiseKernel.reordered (inward 2)) pairedBias)
  obtain ⟨own, hown, hkernel, hbias⟩ :=
    find?_withKernel ∅ "c" true (depthwiseKernel.reordered (inward 2)) pairedBias
  have hcode := conv_outcome (s := s) hitem rfl hown hkernel hbias rfl hback rfl
  refine ⟨_, _, weight, _, hrun, rfl, hcode, rfl, ?_, rfl⟩
  rw [← Except.ok.inj hweight]
  rfl

end

end NetBridge
