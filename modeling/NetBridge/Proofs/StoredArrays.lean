import NetBridge.Proofs.ArrayPasses
import NetBridge.Proofs.DenseLayout

/-!
# The stored arrays of a net

A stored net keeps every array with four axes, and axes of length one are dropped by the place of the array. The arrays
of a framework come back if and only if every layer has a bias of more than one number and no matrix a size of one
(`stored_arrays_agree`, `stored_kernel_refused`).
-/

namespace NetBridge

open List Tensor

/-! ## Arrays with four axes -/

namespace Tensor

theorem volume_ones_append (n : Nat) (ds : List Nat) : volume (replicate n 1 ++ ds) = volume ds := by
  induction n with
  | zero => rfl
  | succ n ih => rw [replicate_succ, cons_append, volume, ih, Nat.one_mul]

/-- The array with at least four axes; those that are added come first and have length one. -/
def widened (t : Tensor) : Tensor :=
  ⟨t.elem, ⟨List.replicate (4 - t.rank) 1 ++ t.shape, t.cells.data, t.cells.full.trans (volume_ones_append ..).symm⟩⟩

variable {t : Tensor}

theorem widened_eq_self (h : t.rank = 4) : t.widened = t := by
  simp only [widened, h]
  rfl

theorem squeeze_widened (t : Tensor) : t.widened.squeeze = t.squeeze := by
  simp only [squeeze, Grid.squeeze, widened, shape, filter_append, filter_replicate, bne_self_eq_false,
    Bool.false_eq_true, if_false, nil_append]

theorem squeeze_eq_self_iff : t.squeeze = t ↔ 1 ∉ t.shape := by
  have hshape : t.squeeze = t ↔ t.shape.filter (· != 1) = t.shape := by
    obtain ⟨e, ds, data, hfull⟩ := t
    simp only [squeeze, Grid.squeeze, shape, mk.injEq, Grid.mk.injEq, true_and, and_true]
  rw [hshape, filter_eq_self]
  constructor
  · intro h hone
    simpa using h 1 hone
  · intro h d hd
    have hne : d ≠ 1 := fun e => h (e ▸ hd)
    simpa using hne

theorem transpose_kernel {a b c d : Nat} (h : t.shape = [a, b, c, d]) :
    ∃ u, t.transpose [2, 3, 1, 0] = .ok u ∧ u.elem = t.elem ∧ u.shape = [c, d, b, a] ∧
      ∀ i < a, ∀ j < b, ∀ y < c, ∀ x < d, u.cells.cell [y, x, j, i] = t.cells.cell [i, j, y, x] := by
  have hshape : t.cells.shape = [a, b, c, d] := h
  have hp : AxisOrder t.cells.rank [2, 3, 1, 0] := by
    rw [Grid.rank, hshape]
    exact (by decide : AxisOrder 4 [2, 3, 1, 0])
  refine ⟨_, transpose_reordered hp, rfl, ?_, fun i hi j hj y hy x hx => ?_⟩
  · simp [reordered, shape, Grid.permute, Grid.ofFn, hshape]
  · have hin : Inside t.cells.shape [i, j, y, x] := hshape ▸ .cons hi (.cons hj (.cons hy (.cons hx .nil)))
    exact Grid.cell_permute_order hp hin

theorem rank_of_transpose {axes : List Int} {u : Tensor} (h : t.transpose axes = .ok u) : t.rank = axes.length := by
  by_contra hne
  have hlen : (axes.length == t.cells.rank) = false := beq_eq_false_iff_ne.mpr (.symm hne)
  simp [transpose, Grid.transpose, hlen, require, bind, Except.bind, Except.map] at h

end Tensor

namespace Prototxt

open Run

/-! ## Stored nets -/

structure Blob.Keeps (b : Blob) (t : Tensor) : Prop where
  elem : (ofSingles b.data).elem = t.elem
  data : (ofSingles b.data).cells.data = t.cells.data
  rank : t.rank ≤ 4
  sizes : b.sizes = t.shape.map Int.ofNat ∧ t.shape ≠ [] ∨ b.sizes = [] ∧ b.oldSizes = t.widened.shape.map Int.ofNat

def NetSpec.Keeps (n : NetSpec) (params : List (String × List Tensor)) : Prop :=
  List.Forall₂ (fun l p => l.name = p.1 ∧ List.Forall₂ Blob.Keeps l.blobs p.2)
    (n.allLayers.filter fun l => !l.blobs.isEmpty) params

theorem Blob.array_eq (b : Blob) : b.array = (if b.sizes.isEmpty then pure b.oldSizes
      else if b.sizes.length ≤ 4 then pure (replicate (4 - b.sizes.length) 1 ++ b.sizes)
      else throw Fault.value) >>= fun sizes => (ofSingles b.data).reshape sizes := by
  rw [Blob.array]
  split
  · rfl
  · split <;> rfl

theorem Blob.Keeps.array_eq {b : Blob} {t : Tensor} (h : b.Keeps t) : b.array = .ok t.widened := by
  have hsizes : (if b.sizes.isEmpty then pure b.oldSizes
      else if b.sizes.length ≤ 4 then pure (replicate (4 - b.sizes.length) 1 ++ b.sizes)
      else throw Fault.value : Except Fault (List Int)) = .ok (t.widened.shape.map Int.ofNat) := by
    rcases h.sizes with ⟨hs, hne⟩ | ⟨hs, hold⟩
    · have hrank : (t.shape.map Int.ofNat).length = t.rank := by
        rw [length_map]
        rfl
      have hnil : (t.shape.map Int.ofNat).isEmpty = false := by simpa using hne
      rw [hs, hnil, if_neg Bool.false_ne_true, if_pos (hrank ▸ h.rank), hrank]
      simp [widened, shape, pure, Except.pure]
    · rw [hs, hold]
      rfl
  have hvolume : volume t.widened.shape = (ofSingles b.data).cells.size := by
    rw [Grid.size, h.data]
    exact t.widened.cells.full.symm
  rw [Blob.array_eq, hsizes]
  change (ofSingles b.data).reshape _ = _
  rw [reshape, Grid.reshape_eq hvolume]
  simp only [Except.map, widened, shape, h.elem, h.data]

theorem mapM_forall₂ {α β γ : Type} {R : α → β → Prop} {f : α → Except Fault γ} {k : β → γ}
    (hone : ∀ a b, R a b → f a = .ok (k b)) {as : List α} {bs : List β} (h : List.Forall₂ R as bs) :
    as.mapM f = .ok (bs.map k) :=
  mapM_eq_ok_iff.mpr (forall₂_map_right_iff.mpr (h.imp hone))

theorem NetSpec.Keeps.store_eq {n : NetSpec} {params : List (String × List Tensor)} (h : n.Keeps params) :
    n.store = .ok ⟨params.map fun p => (p.1, p.2.map widened), true⟩ := by
  have harrays : (n.allLayers.filter fun l => !l.blobs.isEmpty).mapM
      (fun l => do return (l.name, ← l.blobs.mapM Blob.array)) =
        Except.ok (params.map fun p => (p.1, p.2.map widened)) := by
    refine mapM_forall₂ (fun l p hlp => ?_) h
    rw [mapM_forall₂ (fun b t hb => Blob.Keeps.array_eq hb) hlp.2, hlp.1]
    rfl
  rw [NetSpec.store]
  simp only [harrays]
  rfl

/-! ## The arrays of a layer -/

section
variable {g : Net} {i : Nat} {K V : Tensor} {us : List Tensor}

def Node.biased (n : Node) (l : LayerSpec) : Bool :=
  if n.kind = some "InnerProduct" then l.dense.bias else l.conv.bias

/-- The arrays of a layer whose first one is laid out anew: a kernel, or a matrix over the blob that is read, and a
bias if the layer has one. -/
structure Fits (g : Net) (i : Nat) (K : Tensor) (us : List Tensor) : Prop where
  first : (∃ o c h w, ((g.node i).kind = some "Convolution" ∨ (g.node i).kind = some "Deconvolution") ∧
      K.shape = [o, c, h, w]) ∨
    ∃ batch c h w o, ProductOver g i batch c h w ∧ K.shape = [o, c * volume [h, w]]
  bias : ∃ l, (g.node i).setting = .ok l ∧ us.length = if (g.node i).biased l then 1 else 0
  vector : ∀ B ∈ us, ∃ n, B.shape = [n]

def Laid (g : Net) (i : Nat) (K V : Tensor) : Prop :=
  (∃ o c h w, K.shape = [o, c, h, w] ∧ V.elem = K.elem ∧ V.shape = [h, w, c, o] ∧
    ∀ co < o, ∀ ci < c, ∀ y < h, ∀ x < w, V.cells.cell [y, x, ci, co] = K.cells.cell [co, ci, y, x]) ∨
  ∃ batch c h w o, ProductOver g i batch c h w ∧ K.shape = [o, c * volume [h, w]] ∧
    Relaid c (volume [h, w]) o K V

def byRole (V : Tensor) (us : List Tensor) : Arrays :=
  .named (Table.ofList (("weights", .array V) :: us.map fun B => ("bias", .array B)))

/-- The arrays that come back from four axes: there is a bias, not of one number, and a matrix has no size of one. -/
def Regained (g : Net) (i : Nat) (ts : List Tensor) : Prop :=
  ∃ K B, ts = [K, B] ∧ B.shape ≠ [1] ∧ ((g.node i).kind = some "InnerProduct" → 1 ∉ K.shape)

theorem relaidArray_kernel (hk : (g.node i).kind ≠ some "InnerProduct") (t : Tensor) (order : List Int) :
    relaidArray g i t order = t.transpose order := by
  simp [relaidArray, hk, bind, Except.bind, pure, Except.pure]

theorem Fits.isRelaid (h : Fits g i K us) : isRelaid (g.node i).kind = true := by
  rcases h.first with ⟨_, _, _, _, hk | hk, -⟩ | ⟨_, _, _, _, _, hp, -⟩
  · rw [hk]; rfl
  · rw [hk]; rfl
  · rw [hp.kind]; rfl

theorem laidOut_cons (hrelaid : Prototxt.isRelaid (g.node i).kind = true) (us : List Tensor) :
    laidOut g i (K :: us) =
      (layoutOrder (g.node i).kindText >>= relaidArray g i K).map fun V => given (V :: us) := by
  simp only [laidOut, given, relaidCell, if_pos hrelaid]
  cases layoutOrder (g.node i).kindText with
  | error e => rfl
  | ok order =>
    change ((relaidArray g i K order >>= fun V => pure _) >>= settledCell) = (relaidArray g i K order).map _
    cases relaidArray g i K order <;> rfl

theorem Fits.laidOut_eq (h : Fits g i K us) : ∃ V, Laid g i K V ∧ ∀ vs,
    laidOut g i (K :: vs) = .ok (given (V :: vs)) := by
  rcases h.first with ⟨o, c, hh, w, hk, hshape⟩ | ⟨batch, c, hh, w, o, hp, hshape⟩
  · obtain ⟨V, hV, helem, hVshape, hcell⟩ := transpose_kernel hshape
    refine ⟨V, .inl ⟨o, c, hh, w, hshape, helem, hVshape, hcell⟩, fun vs => ?_⟩
    have horder : layoutOrder (g.node i).kindText = .ok [2, 3, 1, 0] := by
      rcases hk with hk | hk
      · rw [Node.kindText, hk]; rfl
      · rw [Node.kindText, hk]; rfl
    have hne : (g.node i).kind ≠ some "InnerProduct" := by
      rcases hk with hk | hk
      · rw [hk]; decide
      · rw [hk]; decide
    rw [laidOut_cons h.isRelaid, horder]
    change (relaidArray g i K [2, 3, 1, 0]).map _ = _
    rw [relaidArray_kernel hne, hV]
    rfl
  · obtain ⟨V, hV, hrelaid⟩ := relaidArray_outcome hp hshape
    refine ⟨V, .inr ⟨batch, c, hh, w, o, hp, hshape, hrelaid⟩, fun vs => ?_⟩
    have horder : layoutOrder (g.node i).kindText = .ok [1, 0] := by rw [Node.kindText, hp.kind]; rfl
    rw [laidOut_cons h.isRelaid, horder]
    change (relaidArray g i K [1, 0]).map _ = _
    rw [hV]
    rfl

variable {vs ts : List Tensor} {B t u : Tensor}

theorem Fits.namedCell_eq (h : Fits g i K us) (V : Tensor) (hlen : vs.length = us.length) :
    namedCell g i (given (V :: vs)) = .ok ⟨byRole V vs, none⟩ := by
  obtain ⟨l, hl, hcount⟩ := h.bias
  rw [← hlen] at hcount
  have hnames : arrayNames (g.node i) (V :: vs).length =
      .ok (some (if (g.node i).biased l then ["weights", "bias"] else ["weights"])) := by
    simp only [arrayNames, h.isRelaid, hl]
    rfl
  simp only [namedCell, given, length_map, hnames]
  cases hbias : (g.node i).biased l with
  | true =>
    rw [hbias] at hcount
    obtain ⟨B, rfl⟩ := length_eq_one_iff.mp hcount
    rfl
  | false =>
    rw [hbias] at hcount
    obtain rfl := length_eq_zero_iff.mp hcount
    rfl

theorem Fits.held_eq (h : Fits g i K us) : ∃ V, Laid g i K V ∧
    (∀ vs, laidOut g i (K :: vs) = .ok (given (V :: vs))) ∧ held false g i (K :: us) = .ok (byRole V us) := by
  obtain ⟨V, hV, hlaid⟩ := h.laidOut_eq
  refine ⟨V, hV, hlaid, ?_⟩
  change (laidOut g i (K :: us) >>= namedCell g i).map Cell.arrays = _
  rw [ok_bind (hlaid us), h.namedCell_eq V rfl]
  rfl

theorem byRole_inj {V V' B' : Tensor} (h : byRole V [B] = byRole V' [B']) : B = B' := by
  have hbias (V B : Tensor) : (Table.ofList [("weights", Value.array V), ("bias", .array B)]).find? "bias" =
      some (.array B) := by
    rfl
  have htables : Table.ofList [("weights", Value.array V), ("bias", .array B)] =
      Table.ofList [("weights", .array V'), ("bias", .array B')] := Arrays.named.inj h
  have hsame := hbias V B
  rw [htables] at hsame
  exact (Value.array.inj (Option.some.inj hsame)).symm

/-! ## Axes of length one -/

theorem rank_of_relayImage {c h w : Int} (hrun : relayImage t c h w = .ok u) : 2 ≤ t.rank := by
  iterate 3 obtain ⟨_, -, hrun⟩ := bind_cases hrun
  obtain ⟨n, hn, -⟩ := bind_cases hrun
  exact (List.getElem?_eq_some_iff.mp (orFault_eq_ok.mp hn)).1

theorem rank_of_relaidArray (h : relaidArray g i t [1, 0] = .ok u) : 2 ≤ t.rank := by
  have hcases (image : Bool) (hrun : (if image then do
        let s ← known (← g.inputSizes i)
        let _ ← orFault Fault.position t.shape[0]?
        relayImage t (← s.channels) (← s.height) (← s.width)
      else t.transpose [1, 0]) = Except.ok u) : 2 ≤ t.rank := by
    cases image with
    | false => exact (rank_of_transpose hrun).ge
    | true =>
      iterate 6 obtain ⟨_, -, hrun⟩ := bind_cases hrun
      exact rank_of_relayImage hrun
  unfold relaidArray at h
  extract_lets n rest at h
  split at h
  · obtain ⟨image, -, hrun⟩ := bind_cases h
    exact hcases image hrun
  · exact hcases false h

/-- What is left of a kernel or a matrix once the axes of length one are dropped from the stored arrays. -/
def trimmed (g : Net) (i : Nat) (K : Tensor) : Tensor :=
  if (g.node i).kind = some "InnerProduct" then K.squeeze else K.widened

theorem taken_pair (K B : Tensor) :
    taken true g i [K.widened, B.widened] = .ok [trimmed g i K, B.squeeze] := by
  by_cases hk : (g.node i).kind = some "InnerProduct"
  · simp only [taken, trimmed, hk]
    rw [← squeeze_widened B, ← squeeze_widened K]
    rfl
  · simp only [taken, trimAxes, trimmed, hk]
    rw [← squeeze_widened B]
    rfl

theorem Fits.trimmed_eq (h : Fits g i K us) (hk : (g.node i).kind = some "InnerProduct" → 1 ∉ K.shape) :
    trimmed g i K = K := by
  rw [trimmed]
  split
  · rename_i hkind
    exact squeeze_eq_self_iff.mpr (hk hkind)
  · rename_i hkind
    rcases h.first with ⟨o, c, hh, w, -, hshape⟩ | ⟨_, _, _, _, _, hp, -⟩
    · exact widened_eq_self (congrArg length hshape)
    · exact absurd hp.kind hkind

theorem Fits.not_one_mem (h : Fits g i K us) (hk : (g.node i).kind = some "InnerProduct") {c : Cell}
    (hlaid : laidOut g i (trimmed g i K :: vs) = .ok c) : 1 ∉ K.shape := by
  have horder : layoutOrder (g.node i).kindText = .ok [1, 0] := by rw [Node.kindText, hk]; rfl
  rw [laidOut_cons h.isRelaid, horder, trimmed, if_pos hk] at hlaid
  obtain ⟨u, hu, -⟩ := except_map_eq_ok.mp hlaid
  have hrank := rank_of_relaidArray hu
  have htwo : K.shape.length = 2 := by
    rcases h.first with ⟨_, _, _, _, hk' | hk', -⟩ | ⟨_, _, _, _, _, -, hshape⟩
    · rw [hk] at hk'; exact absurd hk' (by decide)
    · rw [hk] at hk'; exact absurd hk' (by decide)
    · rw [hshape]; rfl
  have hlen : (K.shape.filter (· != 1)).length = K.shape.length :=
    le_antisymm (length_filter_le ..) (htwo ▸ hrank)
  intro hone
  simpa using length_filter_eq_length_iff.mp hlen 1 hone

theorem Fits.held_pair_iff (h : Fits g i K [B]) (hlaid : ∀ vs, laidOut g i (K :: vs) = .ok (given (V :: vs))) :
    held true g i [K.widened, B.widened] = .ok (byRole V [B]) ↔ Regained g i [K, B] := by
  obtain ⟨n, hn⟩ := h.vector B (mem_singleton_self B)
  have hheld : held true g i [K.widened, B.widened] =
      (laidOut g i [trimmed g i K, B.squeeze] >>= namedCell g i).map Cell.arrays := by
    rw [held, taken_pair]
    rfl
  rw [hheld]
  constructor
  · intro he
    obtain ⟨c, hc, he⟩ := except_map_eq_ok.mp he
    obtain ⟨ws, hws, hc⟩ := bind_cases hc
    have hk (hk : (g.node i).kind = some "InnerProduct") : 1 ∉ K.shape := h.not_one_mem hk hws
    rw [h.trimmed_eq hk, hlaid] at hws
    cases hws
    rw [h.namedCell_eq V (show [B.squeeze].length = [B].length from rfl)] at hc
    cases hc
    have hB : 1 ∉ B.shape := squeeze_eq_self_iff.mp (byRole_inj he)
    exact ⟨K, B, rfl, fun e => hB (e ▸ mem_singleton_self 1), hk⟩
  · rintro ⟨_, _, he, hB, hk⟩
    cases he
    have hB' : 1 ∉ B.shape := by
      rw [hn] at hB ⊢
      simpa [eq_comm] using hB
    rw [h.trimmed_eq hk, squeeze_eq_self_iff.mpr hB', ok_bind (hlaid _), h.namedCell_eq V rfl]
    rfl

theorem Fits.held_widened_iff (h : Fits g i K us) :
    held true g i ((K :: us).map widened) = held false g i (K :: us) ↔ Regained g i (K :: us) := by
  obtain ⟨V, -, hlaid, hgiven⟩ := h.held_eq
  have hcount : us.length ≤ 1 := by
    obtain ⟨l, -, hl⟩ := h.bias
    rw [hl]
    split <;> omega
  rw [hgiven]
  cases us with
  | nil =>
    constructor
    · intro he
      cases he
    · rintro ⟨_, _, he, -⟩
      cases he
  | cons B us =>
    obtain rfl : us = [] := by simpa using hcount
    exact h.held_pair_iff hlaid

theorem two_le_of_held {x : Arrays} (h : held true g i ts = .ok x) : 2 ≤ ts.length := by
  obtain ⟨c, hc, -⟩ := except_map_eq_ok.mp h
  obtain ⟨us, hus, -⟩ := bind_cases hc
  obtain ⟨vs, hvs, -⟩ := bind_cases hus
  obtain ⟨ws, hws, -⟩ := bind_cases hvs
  obtain ⟨B, hB, -⟩ := bind_cases hws
  exact (List.getElem?_eq_some_iff.mp (orFault_eq_ok.mp hB)).1

def OfOtherKind (g : Net) (i : Nat) (ts : List Tensor) : Prop :=
  isRelaid (g.node i).kind = false ∧ ((g.node i).kind = some "BatchNorm" → ts.length = 2 ∨ ts.length = 4)

theorem OfOtherKind.held_ok (h : OfOtherKind g i ts) (four : Bool)
    (htwo : four = true → 2 ≤ ts.length) : ∃ x, held four g i ts = .ok x := by
  obtain ⟨hk, hnorm⟩ := h
  have hnamed (vs : List Tensor) (hlen : vs.length = ts.length) : ∃ c, namedCell g i (given vs) = .ok c := by
    by_cases hbatch : (g.node i).kind = some "BatchNorm"
    · have hnames : arrayNames (g.node i) vs.length =
          .ok (some (if vs.length = 4 then ["mean", "var", "scale", "bias"] else ["mean", "var"])) := by
        rw [arrayNames, if_neg (by simp [hk]), if_pos hbatch]
      simp only [namedCell, given, length_map, hnames]
      rcases hnorm hbatch with hn | hn
      · simp [hlen, hn, bind, Except.bind, require, pure, Except.pure]
      · simp [hlen, hn, bind, Except.bind, require, pure, Except.pure]
    · have hnames : arrayNames (g.node i) vs.length = .ok none := by simp [arrayNames, hk, hbatch]
      simp only [namedCell, given, length_map, hnames]
      exact ⟨_, rfl⟩
  have hlaid (vs : List Tensor) : laidOut g i vs = .ok (given vs) := by simp [laidOut, given, relaidCell, hk]; rfl
  obtain ⟨vs, hvs, hlen⟩ : ∃ vs, taken four g i ts = .ok vs ∧ vs.length = ts.length := by
    cases four with
    | false => exact ⟨ts, rfl, rfl⟩
    | true =>
      have hne : (g.node i).kind ≠ some "InnerProduct" := by
        intro e
        rw [e] at hk
        exact absurd hk (by decide)
      obtain ⟨K, B, vs, rfl⟩ : ∃ K B vs, ts = K :: B :: vs := by
        have hlen := htwo rfl
        rcases ts with _ | ⟨K, _ | ⟨B, vs⟩⟩
        · simp at hlen
        · simp at hlen
        · exact ⟨K, B, vs, rfl⟩
      refine ⟨K :: B.squeeze :: vs, ?_, rfl⟩
      simp only [taken, trimAxes, hne]
      rfl
  obtain ⟨c, hc⟩ := hnamed vs hlen
  exact ⟨c.arrays, by rw [held, ok_bind hvs, ok_bind (hlaid vs), hc]; rfl⟩

end

/-- **Stored arrays and those of a framework.** The arrays that a framework has of a net can be handed to its nodes,
and then every layer has its kernel or matrix in the new layout, and its bias if it is to have one. With the arrays of
the stored net this succeeds with the same arrays if and only if every layer has two of them, and kernels, matrices and
biases come back from four axes. -/
theorem stored_arrays_agree {n : NetSpec} {o : BuildOptions} {g : Net} (hg : build n o = .ok g) {model : NetSpec}
    {params : List (String × List Tensor)} (hmodel : model.Keeps params) (hnames : (params.map (·.1)).Nodup)
    (hparams : ∀ p ∈ params, ∀ i, g.byName.find? p.1 = some i →
      (∃ K us, p.2 = K :: us ∧ Fits g i K us) ∨ OfOtherKind g i p.2) :
    ∃ store s, model.store = .ok store ∧ (loadAll ⟨params, false⟩).outcome { net := g } = (.ok (), s) ∧
      (∀ p ∈ params, ∀ i, g.byName.find? p.1 = some i → isRelaid (g.node i).kind = true →
        ∃ K us V, p.2 = K :: us ∧ Laid g i K V ∧ (s.net.node i).arrays = byRole V us) ∧
      ((∃ s', (loadAll store).outcome { net := g } = (.ok (), s') ∧
          ∀ p ∈ params, ∀ i, g.byName.find? p.1 = some i → isRelaid (g.node i).kind = true →
            (s'.net.node i).arrays = (s.net.node i).arrays) ↔
        ∀ p ∈ params, ∀ i, g.byName.find? p.1 = some i →
          2 ≤ p.2.length ∧ (isRelaid (g.node i).kind = true → Regained g i p.2)) := by
  obtain ⟨hsound, hbare⟩ := build_sound hg
  have hfits : ∀ p ∈ params, ∀ i, g.byName.find? p.1 = some i → isRelaid (g.node i).kind = true →
      ∃ K us, p.2 = K :: us ∧ Fits g i K us := by
    intro p hp i hi hrelaid
    rcases hparams p hp i hi with h | h
    · exact h
    · exact absurd hrelaid (by simp [h.1])
  have hnames₀ : ((⟨params, false⟩ : Store).arrays.map (·.1)).Nodup := hnames
  obtain ⟨s, hs⟩ := loadAll_succeeds hsound hbare hnames₀ (fun p hp i hi => by
    rcases hparams p hp i hi with ⟨K, us, hts, h⟩ | h
    · obtain ⟨V, -, -, hheld⟩ := h.held_eq
      exact ⟨_, hts ▸ hheld⟩
    · exact h.held_ok false nofun) []
  have hholds := fun p hp i hi => loadAll_holds hsound hbare hnames₀ hs (p := p) hp (i := i) hi
  let store : Store := ⟨params.map fun p => (p.1, p.2.map widened), true⟩
  have hnames' : (store.arrays.map (·.1)).Nodup := by simpa [store, Function.comp_def] using hnames
  have hmem {p : String × List Tensor} (hp : p ∈ params) : (p.1, p.2.map widened) ∈ store.arrays :=
    mem_map.mpr ⟨p, hp, rfl⟩
  refine ⟨store, s, hmodel.store_eq, hs, fun p hp i hi hrelaid => ?_, ⟨?_, fun hregained => ?_⟩⟩
  · obtain ⟨K, us, hts, h⟩ := hfits p hp i hi hrelaid
    obtain ⟨V, hV, -, hheld⟩ := h.held_eq
    have hnode := hholds p hp i hi
    rw [hts, hheld] at hnode
    exact ⟨K, us, V, hts, hV, (Except.ok.inj hnode).symm⟩
  · rintro ⟨s', hs', hsame⟩ p hp i hi
    have hstored := loadAll_holds hsound hbare hnames' hs' (hmem hp) hi
    refine ⟨by simpa using two_le_of_held hstored, fun hrelaid => ?_⟩
    obtain ⟨K, us, hts, h⟩ := hfits p hp i hi hrelaid
    rw [hsame p hp i hi hrelaid, ← hholds p hp i hi] at hstored
    rw [hts] at hstored ⊢
    exact h.held_widened_iff.mp hstored
  · have hstored : ∀ p ∈ params, ∀ i, g.byName.find? p.1 = some i → isRelaid (g.node i).kind = true →
        held true g i (p.2.map widened) = held false g i p.2 := by
      intro p hp i hi hrelaid
      obtain ⟨K, us, hts, h⟩ := hfits p hp i hi hrelaid
      have hback := (hregained p hp i hi).2 hrelaid
      rw [hts] at hback ⊢
      exact h.held_widened_iff.mpr hback
    obtain ⟨s', hs'⟩ := loadAll_succeeds hsound hbare hnames' (fun p' hp' i hi => by
      obtain ⟨p, hp, rfl⟩ := mem_map.mp hp'
      rcases hparams p hp i hi with ⟨K, us, hts, h⟩ | h
      · exact ⟨_, (hstored p hp i hi h.isRelaid).trans (hholds p hp i hi)⟩
      · have hwide : OfOtherKind g i (p.2.map widened) := by simpa [OfOtherKind] using h
        exact hwide.held_ok true fun _ => by simpa using (hregained p hp i hi).1) []
    refine ⟨s', hs', fun p hp i hi hrelaid => ?_⟩
    have hheld := loadAll_holds hsound hbare hnames' hs' (hmem hp) hi
    exact Except.ok.inj (hheld.symm.trans ((hstored p hp i hi hrelaid).trans (hholds p hp i hi)))

def pairParams : List (String × List Tensor) :=
  [("conv", [⟨.float32, ⟨[2, 1, 1, 1], (Tensor.ofSingles [1, 2]).cells.data, rfl⟩⟩, Tensor.ofSingles [3, 4]]),
    ("dense", [⟨.float32, ⟨[2, 8], (Tensor.ofSingles ((List.range 16).map Float.ofNat)).cells.data, rfl⟩⟩,
      Tensor.ofSingles [5, 6]])]

def pairNet : NetSpec :=
  { inputs := ["data"], inputDims := [1, 1, 2, 2]
    layers := [
      { name := "conv", type := .named "Convolution", bottoms := ["data"], tops := ["conv"]
        conv := { outputs := 2, kernel := [1] }
        blobs := [{ data := [1, 2], sizes := [2, 1, 1, 1] }, { data := [3, 4], sizes := [2] }] },
      { name := "dense", type := .named "InnerProduct", bottoms := ["conv"], tops := ["dense"]
        dense := { outputs := 2 }
        blobs := [{ data := (List.range 16).map Float.ofNat, sizes := [2, 8] }, { data := [5, 6], sizes := [2] }] }] }

def pairBuilt : Net := Run.resultD (build pairNet {}) default

theorem build_pairNet : build pairNet {} = .ok pairBuilt := Run.eq_resultD (by decide +kernel)

theorem keeps_pairNet : pairNet.Keeps pairParams := by
  refine .cons ⟨rfl, .cons ⟨rfl, rfl, by decide, .inl ⟨rfl, by decide⟩⟩ (.cons ?_ .nil)⟩
    (.cons ⟨rfl, .cons ⟨rfl, rfl, by decide, .inl ⟨rfl, by decide⟩⟩ (.cons ?_ .nil)⟩ .nil) <;>
    exact ⟨rfl, rfl, by decide, .inl ⟨rfl, by decide⟩⟩

theorem exists_setting {n : Node} {b : Bool} (h : n.setting.toOption.map n.biased = some b) :
    ∃ l, n.setting = .ok l ∧ n.biased l = b := by
  cases hl : n.setting with
  | error e => rw [hl] at h; cases h
  | ok l =>
    rw [hl] at h
    exact ⟨l, rfl, Option.some.inj h⟩

theorem fits_pairParams : ∀ p ∈ pairParams, ∀ i, pairBuilt.byName.find? p.1 = some i →
    ∃ K us, p.2 = K :: us ∧ Fits pairBuilt i K us ∧ Regained pairBuilt i p.2 := by
  have hconv : pairBuilt.byName.find? "conv" = some 1 := by decide +kernel
  have hdense : pairBuilt.byName.find? "dense" = some 2 := by decide +kernel
  have hkind : (pairBuilt.node 1).kind = some "Convolution" := by decide +kernel
  have hover : ProductOver pairBuilt 2 1 2 2 2 := by
    refine ⟨by decide +kernel, 1, 0, by decide +kernel, ?_⟩
    have hsizes : (pairBuilt.node 1).sizes.map (fun s => (s.dims, s.named)) = some ([1, 2, 2, 2], true) := by
      decide +kernel
    obtain ⟨⟨dims, named⟩, hs, he⟩ := Option.map_eq_some_iff.mp hsizes
    cases he
    exact hs
  intro p hp i hi
  rcases mem_cons.mp hp with rfl | hp
  · cases hconv.symm.trans hi
    obtain ⟨l, hl, hb⟩ := exists_setting (n := pairBuilt.node 1) (b := true) (by decide +kernel)
    refine ⟨_, _, rfl, ⟨.inl ⟨_, _, _, _, .inl hkind, rfl⟩, ⟨l, hl, by rw [hb]; rfl⟩, ?_⟩, _, _, rfl,
      by decide, ?_⟩
    · intro B hB
      rw [mem_singleton.mp hB]
      exact ⟨2, rfl⟩
    · rw [hkind]
      decide
  · obtain rfl := mem_singleton.mp hp
    cases hdense.symm.trans hi
    obtain ⟨l, hl, hb⟩ := exists_setting (n := pairBuilt.node 2) (b := true) (by decide +kernel)
    refine ⟨_, _, rfl, ⟨.inr ⟨1, 2, 2, 2, 2, hover, rfl⟩, ⟨l, hl, by rw [hb]; rfl⟩, ?_⟩, _, _, rfl, by decide, ?_⟩
    · intro B hB
      rw [mem_singleton.mp hB]
      exact ⟨2, rfl⟩
    · intro _
      decide

theorem stored_arrays_agree_pair : build pairNet {} = .ok pairBuilt ∧ ∃ store s s', pairNet.store = .ok store ∧
    (loadAll ⟨pairParams, false⟩).outcome { net := pairBuilt } = (.ok (), s) ∧
    (loadAll store).outcome { net := pairBuilt } = (.ok (), s') ∧
    ∀ p ∈ pairParams, ∀ i, pairBuilt.byName.find? p.1 = some i →
      (s'.net.node i).arrays = (s.net.node i).arrays ∧
      ∃ K us V, p.2 = K :: us ∧ Laid pairBuilt i K V ∧ (s.net.node i).arrays = byRole V us := by
  obtain ⟨store, s, hstore, hs, hlaid, hiff⟩ := stored_arrays_agree build_pairNet keeps_pairNet (by decide)
    fun p hp i hi => by
      obtain ⟨K, us, hts, h, -⟩ := fits_pairParams p hp i hi
      exact .inl ⟨K, us, hts, h⟩
  obtain ⟨s', hs', hsame⟩ := hiff.mpr fun p hp i hi => by
    obtain ⟨_, _, -, -, K, B, hts, hrest⟩ := fits_pairParams p hp i hi
    exact ⟨by rw [hts]; rfl, fun _ => ⟨K, B, hts, hrest⟩⟩
  refine ⟨build_pairNet, store, s, s', hstore, hs, hs', fun p hp i hi => ?_⟩
  obtain ⟨_, _, -, h, -⟩ := fits_pairParams p hp i hi
  exact ⟨hsame p hp i hi h.isRelaid, hlaid p hp i hi h.isRelaid⟩

def plainNet : NetSpec :=
  { inputs := ["data"], inputDims := [1, 1, 2, 2]
    layers := [{ name := "conv", type := .named "Convolution", bottoms := ["data"], tops := ["conv"]
                 conv := { outputs := 2, kernel := [1], bias := false }
                 blobs := [{ data := [1, 2], sizes := [2, 1, 1, 1] }] }] }

def plainBuilt : Net := Run.resultD (build plainNet {}) default

def plainKernel (shape : List Nat) (h : volume shape = 2) : Tensor :=
  ⟨.float32, ⟨shape, (Tensor.ofSingles [1, 2]).cells.data, h.symm⟩⟩

/-- **Kernels without a bias are refused.** A framework hands on the kernel of such a layer, and the kernel is laid out
and named; that of the stored net is refused. -/
theorem stored_kernel_refused :
    build plainNet {} = .ok plainBuilt ∧ plainNet.Keeps [("conv", [plainKernel [2, 1, 1, 1] rfl])] ∧
    (∃ s, (loadAll ⟨[("conv", [plainKernel [2, 1, 1, 1] rfl])], false⟩).outcome { net := plainBuilt } = (.ok (), s) ∧
      (s.net.node 1).arrays = byRole (plainKernel [1, 1, 1, 2] rfl) []) ∧
    ∃ store, plainNet.store = .ok store ∧
      ((loadAll store).outcome { net := plainBuilt }).1 = .error Fault.position := by
  refine ⟨Run.eq_resultD (by decide +kernel), ?_, ⟨_, rfl, rfl⟩, _, rfl, rfl⟩
  exact .cons ⟨rfl, .cons ⟨rfl, rfl, by decide, .inl ⟨rfl, by decide⟩⟩ .nil⟩ .nil

end Prototxt

end NetBridge
