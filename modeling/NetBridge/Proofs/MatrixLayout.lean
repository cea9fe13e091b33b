import NetBridge.Proofs.AxisOrders
import Mathlib.Data.List.Nodup

/-!
# Matrices over an image

The matrix of a dense layer lists an output a row with the channels outside the places, or an output a column with the
places outside the channels; `Relaid` says that two matrices agree in this way.
-/

namespace NetBridge

open Grid List

/-! ## Matrices -/

/-- The matrix `V` has a row for every place and channel of an image, places first, and a column for every
output; `W` has a row for every output, and its columns are ordered by channel. -/
structure Relaid (channels places outputs : Nat) (W V : Tensor) : Prop where
  elem : V.elem = W.elem
  shape : V.shape = [channels * places, outputs]
  cell : ∀ s < places, ∀ c < channels, ∀ o < outputs,
    V.cells.cell [s * channels + c, o] = W.cells.cell [o, c * places + s]

theorem rowMajor_matrix (a b i j : Nat) : rowMajor [a, b] [i, j] = i * b + j := by
  simp [rowMajor, volume]

theorem volume_matrix (a b : Nat) : volume [a, b] = a * b := by simp [volume]

variable {a b channels places outputs : Nat} {t W : Tensor}

theorem inside_matrix {ix : List Nat} (h : Inside [a, b] ix) : ∃ i j, ix = [i, j] ∧ i < a ∧ j < b := by
  match ix, h with
  | [i, j], .cons hi (.cons hj .nil) => exact ⟨i, j, rfl, hi, hj⟩

theorem row_split {r : Nat} (h : r < channels * places) : ∃ s c, s < places ∧ c < channels ∧ r = s * channels + c := by
  have hpos : 0 < channels := Nat.pos_of_ne_zero fun e => by simp [e] at h
  refine ⟨r / channels, r % channels, Nat.div_lt_of_lt_mul h, Nat.mod_lt _ hpos, ?_⟩
  rw [Nat.mul_comm]
  exact (Nat.div_add_mod r channels).symm

theorem Tensor.ext_cells {u : Tensor} (helem : t.elem = u.elem) (ht : t.shape = [a, b])
    (hu : u.shape = [a, b]) (h : ∀ i < a, ∀ j < b, t.cells.cell [i, j] = u.cells.cell [i, j]) : t = u := by
  obtain ⟨e, g⟩ := t
  congr 1
  have hshape : g.shape = [a, b] := ht
  refine Grid.ext_cells (ht.trans hu.symm) fun ix hix => ?_
  obtain ⟨i, j, rfl, hi, hj⟩ := inside_matrix (hshape ▸ hix)
  exact h i hi j hj

theorem Relaid.unique {V V' : Tensor}
    (h : Relaid channels places outputs W V) (h' : Relaid channels places outputs W V') : V = V' := by
  refine Tensor.ext_cells (h.elem.trans h'.elem.symm) h.shape h'.shape fun r hr o ho => ?_
  obtain ⟨s, c, hs, hc, rfl⟩ := row_split hr
  rw [h.cell s hs c hc o ho, h'.cell s hs c hc o ho]

theorem Tensor.transpose_matrix (ht : t.shape = [a, b]) :
    ∃ u, t.transpose [1, 0] = .ok u ∧ u.elem = t.elem ∧ u.shape = [b, a] ∧
      ∀ i < a, ∀ j < b, u.cells.cell [j, i] = t.cells.cell [i, j] := by
  have hshape : t.cells.shape = [a, b] := ht
  have hp : AxisOrder t.cells.rank [1, 0] := by
    rw [Grid.rank, hshape]
    exact (by decide : AxisOrder 2 [1, 0])
  refine ⟨_, transpose_reordered hp, rfl, ?_, fun i hi j hj => ?_⟩
  · simp [reordered, shape, Grid.permute, Grid.ofFn, hshape]
  · have hin : Inside t.cells.shape [i, j] := hshape ▸ .cons hi (.cons hj .nil)
    exact cell_permute_order hp hin

/-! ## Rows over an image -/

/-- A tensor takes the shape `S`, its axes are put in another order, and it takes the shape `E`. -/
theorem Tensor.regroup {dims : List Int} {S perm : List Nat} (E : List Nat)
    {hS : t.cells.data.size = volume S} (h : t.cells.reshape dims = .ok ⟨S, t.cells.data, hS⟩) (hp : AxisOrder S.length perm)
    (hvol : volume E = volume (perm.map fun a => S.getD a 0)) :
    ∃ t₁ t₂ t₃, t.reshape dims = .ok t₁ ∧ t₁.transpose (perm.map Int.ofNat) = .ok t₂ ∧
      t₂.reshape (E.map Int.ofNat) = .ok t₃ ∧ t₃.elem = t.elem ∧ t₃.shape = E ∧
      ∀ jx, Inside S jx → ∀ ix kx, rowMajor t.shape kx = rowMajor S jx →
        rowMajor E ix = rowMajor (perm.map fun a => S.getD a 0) (perm.map fun a => jx.getD a 0) →
        t₃.cells.cell ix = t.cells.cell kx := by
  let g : Grid Scalar := ⟨S, t.cells.data, hS⟩
  have hsize : volume E = (g.permute perm).size := hvol.trans (g.permute perm).full.symm
  refine ⟨⟨t.elem, g⟩, _, ⟨t.elem, ⟨E, (g.permute perm).data, hsize.symm⟩⟩, ?_, transpose_reordered hp, ?_, rfl, rfl,
    fun jx hjx ix kx hkx hix => ?_⟩
  · rw [reshape, h]
    rfl
  · rw [reshape, reordered, reshape_eq hsize]
    rfl
  · calc _ = (g.permute perm).cell (perm.map fun a => jx.getD a 0) := by rw [cell, hix]; rfl
      _ = g.cell jx := cell_permute_order hp hjx
      _ = t.cells.cell kx := by rw [cell, ← hkx]; rfl

section
variable {ds is : List Nat} (hlen : is.length = ds.length)
include hlen

theorem rowMajor_channelsLast (channels outputs c o : Nat) :
    rowMajor (ds ++ [channels, outputs]) (is ++ [c, o]) = (rowMajor ds is * channels + c) * outputs + o := by
  rw [rowMajor_append hlen, rowMajor_matrix, volume_matrix]
  ring

theorem rowMajor_channelsFirst (channels outputs c o : Nat) :
    rowMajor (channels :: (ds ++ [outputs])) (c :: (is ++ [o])) =
      (c * volume ds + rowMajor ds is) * outputs + o := by
  rw [rowMajor, rowMajor_append hlen, volume_append]
  simp only [rowMajor, volume]
  ring

end

def placesFirst (m : Nat) : List Nat := (List.range m).map (· + 1) ++ [0, m + 1]

def channelsFirst (m : Nat) : List Nat := m :: (List.range m ++ [m + 1])

theorem map_placesFirst (xs : List Nat) (x y : Nat) :
    (placesFirst xs.length).map (fun a => (x :: (xs ++ [y])).getD a 0) = xs ++ [x, y] := by
  have hmid : (range xs.length).map (fun a => (xs ++ [y])[a]?.getD 0) = xs := by
    refine ext_getElem (by simp) fun a ha ha' => ?_
    simp [getElem?_append_left ha', getElem?_eq_getElem ha']
  simp [placesFirst, Function.comp_def, hmid]

theorem map_channelsFirst (xs : List Nat) (x y : Nat) :
    (channelsFirst xs.length).map (fun a => (xs ++ [x, y]).getD a 0) = x :: (xs ++ [y]) := by
  have hmid : (range xs.length).map (fun a => (xs ++ [x, y])[a]?.getD 0) = xs := by
    refine ext_getElem (by simp) fun a ha ha' => ?_
    simp [getElem?_append_left ha', getElem?_eq_getElem ha']
  simp [channelsFirst, hmid]

theorem axisOrder_placesFirst (m : Nat) : AxisOrder (m + 2) (placesFirst m) := by
  rw [AxisOrder, range_succ_eq_map, range_succ, map_append]
  exact perm_middle

theorem axisOrder_channelsFirst (m : Nat) : AxisOrder (m + 2) (channelsFirst m) := by
  rw [AxisOrder, range_succ, range_succ, append_assoc]
  exact perm_middle.symm

section
variable {ds : List Nat} {channels outputs : Nat} {t : Tensor}

theorem volume_channelsFirst : volume (channels :: (ds ++ [outputs])) = channels * volume ds * outputs := by
  simp [volume, volume_append, Nat.mul_assoc]

theorem volume_channelsLast : volume (ds ++ [channels, outputs]) = channels * volume ds * outputs := by
  rw [volume_append, volume_matrix]
  ring

theorem size_rows (ht : t.shape = [channels * volume ds, outputs]) :
    t.cells.size = channels * volume ds * outputs := by
  have hshape : t.cells.shape = [channels * volume ds, outputs] := ht
  rw [size, t.cells.full, hshape, volume_matrix]

theorem relay_placesFirst (ht : t.shape = [channels * volume ds, outputs]) :
    ∃ t₁ t₂ t₃, t.reshape ((channels :: (ds ++ [outputs])).map Int.ofNat) = .ok t₁ ∧
      t₁.transpose ((placesFirst ds.length).map Int.ofNat) = .ok t₂ ∧
      t₂.reshape (t.shape.map Int.ofNat) = .ok t₃ ∧ t₃.elem = t.elem ∧ t₃.shape = t.shape ∧
      ∀ s < volume ds, ∀ c < channels, ∀ o < outputs,
        t₃.cells.cell [s * channels + c, o] = t.cells.cell [c * volume ds + s, o] := by
  obtain ⟨t₁, t₂, t₃, h₁, h₂, h₃, helem, hshape, hcell⟩ := Tensor.regroup t.shape
    (reshape_eq (volume_channelsFirst.trans (size_rows ht).symm))
    (by simpa using axisOrder_placesFirst ds.length)
    (by rw [map_placesFirst ds channels outputs, volume_channelsLast, ht, volume_matrix])
  refine ⟨t₁, t₂, t₃, h₁, h₂, h₃, helem, hshape, fun s hs c hc o ho => ?_⟩
  obtain ⟨is, his, rfl⟩ := exists_inside ds hs
  have hl := his.length_eq
  refine hcell (c :: (is ++ [o])) (.cons hc (rel_append his (.cons ho .nil))) _ _ ?_ ?_
  · rw [rowMajor_channelsFirst hl, ht, rowMajor_matrix]
  · rw [map_placesFirst ds channels outputs, ← hl, map_placesFirst is c o, rowMajor_channelsLast hl, ht,
      rowMajor_matrix]

/-- Rows ordered by place are brought into the order of channels; the number of outputs is left open. -/
theorem relay_channelsFirst (hpos : 0 < channels * volume ds) (ht : t.shape = [channels * volume ds, outputs]) :
    ∃ t₁ t₂ t₃, t.reshape ((ds ++ [channels]).map Int.ofNat ++ [-1]) = .ok t₁ ∧
      t₁.transpose ((channelsFirst ds.length).map Int.ofNat) = .ok t₂ ∧
      t₂.reshape (t.shape.map Int.ofNat) = .ok t₃ ∧ t₃.elem = t.elem ∧ t₃.shape = t.shape ∧
      ∀ s < volume ds, ∀ c < channels, ∀ o < outputs,
        t₃.cells.cell [c * volume ds + s, o] = t.cells.cell [s * channels + c, o] := by
  have hvol : volume (ds ++ [channels]) = channels * volume ds := by
    simp [volume_append, volume, Nat.mul_comm]
  have hopen := reshape_open (hvol ▸ hpos) (by rw [volume_append, hvol, size_rows ht, volume, volume, Nat.mul_one])
  simp only [append_assoc, cons_append, nil_append] at hopen
  obtain ⟨t₁, t₂, t₃, h₁, h₂, h₃, helem, hshape, hcell⟩ := Tensor.regroup t.shape hopen
    (by simpa using axisOrder_channelsFirst ds.length)
    (by rw [map_channelsFirst ds channels outputs, volume_channelsFirst, ht, volume_matrix])
  refine ⟨t₁, t₂, t₃, h₁, h₂, h₃, helem, hshape, fun s hs c hc o ho => ?_⟩
  obtain ⟨is, his, rfl⟩ := exists_inside ds hs
  have hl := his.length_eq
  refine hcell (is ++ [c, o]) (rel_append his (.cons hc (.cons ho .nil))) _ _ ?_ ?_
  · rw [ht, rowMajor_matrix]
    exact (rowMajor_channelsLast hl ..).symm
  · rw [map_channelsFirst ds channels outputs, ← hl, map_channelsFirst is c o, rowMajor_channelsFirst hl, ht,
      rowMajor_matrix]

theorem relay_image {height width : Nat} (ht : t.shape = [outputs, channels * volume [height, width]]) :
    ∃ t₁ t₂ t₃, t.reshape ([outputs, channels, height, width].map Int.ofNat) = .ok t₁ ∧
      t₁.transpose ([2, 3, 1, 0].map Int.ofNat) = .ok t₂ ∧
      t₂.reshape ([channels * volume [height, width], outputs].map Int.ofNat) = .ok t₃ ∧
      Relaid channels (volume [height, width]) outputs t t₃ := by
  have hvol : volume [outputs, channels, height, width] = t.cells.size := by
    have hshape : t.cells.shape = [outputs, channels * volume [height, width]] := ht
    rw [size, t.cells.full, hshape]
    simp [volume]
  obtain ⟨t₁, t₂, t₃, h₁, h₂, h₃, helem, hshape, hcell⟩ := Tensor.regroup
    [channels * volume [height, width], outputs] (reshape_eq hvol)
    (by decide : AxisOrder 4 [2, 3, 1, 0]) (by simp [volume]; ring)
  refine ⟨t₁, t₂, t₃, h₁, h₂, h₃, helem, hshape, fun s hs c hc o ho => ?_⟩
  obtain ⟨ix, hix, rfl⟩ := exists_inside [height, width] hs
  obtain ⟨y, x, rfl, hy, hx⟩ := inside_matrix hix
  refine hcell [o, c, y, x] (.cons ho (.cons hc (.cons hy (.cons hx .nil)))) _ _ ?_ ?_
  · simp [ht, rowMajor, volume]
  · simp [rowMajor, volume]
    ring

end

theorem exists_relaid {ds : List Nat}
    (hshape : W.shape = [outputs, channels * volume ds]) : ∃ t V, W.transpose [1, 0] = .ok t ∧
      t.shape = [channels * volume ds, outputs] ∧ Relaid channels (volume ds) outputs W V ∧
      ∃ t₁ t₂, t.reshape ((channels :: (ds ++ [outputs])).map Int.ofNat) = .ok t₁ ∧
        t₁.transpose ((placesFirst ds.length).map Int.ofNat) = .ok t₂ ∧ t₂.reshape (t.shape.map Int.ofNat) = .ok V := by
  obtain ⟨t, ht, helem, htshape, htcell⟩ := Tensor.transpose_matrix hshape
  obtain ⟨t₁, t₂, V, h₁, h₂, h₃, helem', hVshape, hVcell⟩ := relay_placesFirst htshape
  have hV : Relaid channels (volume ds) outputs W V := by
    refine ⟨helem'.trans helem, hVshape.trans htshape, fun s hs c hc o ho => ?_⟩
    rw [hVcell s hs c hc o ho]
    refine htcell o ho (c * volume ds + s) ?_
    calc c * volume ds + s < c * volume ds + volume ds := by omega
      _ = (c + 1) * volume ds := by ring
      _ ≤ channels * volume ds := Nat.mul_le_mul_right _ hc
  exact ⟨t, V, ht, htshape, hV, t₁, t₂, h₁, h₂, h₃⟩

end NetBridge
