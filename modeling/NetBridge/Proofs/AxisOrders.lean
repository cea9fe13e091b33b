import Mathlib.Data.List.Forall2
import Mathlib.Data.List.Perm.Basic
import Mathlib.Tactic.Ring
import NetBridge.Target.MxNet

/-!
# Cells and axes of a grid

A reordered grid is read through the order. Reordering the axes twice is reordering them by the composed order
(`permute_permute`), so one order undoes another if the two compose to the usual one.
-/

namespace NetBridge

open List

/-! ## Places in row-major order -/

abbrev Inside (shape ix : List Nat) : Prop := List.Forall₂ (· < ·) ix shape

theorem volume_append (ds es : List Nat) : volume (ds ++ es) = volume ds * volume es := by
  induction ds with
  | nil => simp [volume]
  | cons d ds ih => rw [cons_append, volume, volume, ih, Nat.mul_assoc]

theorem rowMajor_append {ds is : List Nat} (h : is.length = ds.length) (es js : List Nat) :
    rowMajor (ds ++ es) (is ++ js) = rowMajor ds is * volume es + rowMajor es js := by
  induction ds generalizing is with
  | nil =>
    rw [length_nil, length_eq_zero_iff] at h
    simp [h, rowMajor]
  | cons d ds ih =>
    cases is with
    | nil => simp at h
    | cons i is =>
      rw [cons_append, cons_append, rowMajor, rowMajor, ih (by simpa using h), volume_append]
      ring

variable {ds ix : List Nat}

theorem rowMajor_lt (h : Inside ds ix) : rowMajor ds ix < volume ds := by
  induction h with
  | nil => simp [rowMajor, volume]
  | @cons i d is ds hi _ ih =>
    calc i * volume ds + rowMajor ds is < i * volume ds + volume ds := by omega
      _ = (i + 1) * volume ds := by ring
      _ ≤ d * volume ds := Nat.mul_le_mul_right _ hi

variable {n : Nat} {β : Type} {A jx : List Nat}

theorem getElem?_flatMap_block {α : Type} {f : α → List β} (hf : ∀ a, (f a).length = n)
    (l : List α) (i : Nat) {j : Nat} (hj : j < n) : (l.flatMap f)[i * n + j]? = l[i]?.bind fun a => (f a)[j]? := by
  induction l generalizing i with
  | nil => simp
  | cons a l ih =>
    rw [flatMap_cons]
    cases i with
    | zero =>
      rw [getElem?_append_left (by rw [hf]; omega)]
      simp
    | succ i =>
      have hle : n ≤ (i + 1) * n + j := by
        calc n = 1 * n := (Nat.one_mul n).symm
          _ ≤ (i + 1) * n := Nat.mul_le_mul_right _ (by omega)
          _ ≤ (i + 1) * n + j := Nat.le_add_right _ _
      rw [getElem?_append_right (by rw [hf]; exact hle), hf]
      have he : (i + 1) * n + j - n = i * n + j := by
        rw [Nat.add_mul]
        omega
      rw [he, ih]
      simp

theorem getElem?_positions (h : Inside ds ix) : (positions ds)[rowMajor ds ix]? = some ix := by
  induction h with
  | nil => rfl
  | @cons i d is ds hi hrest ih =>
    rw [positions, rowMajor]
    rw [getElem?_flatMap_block (fun i => by rw [length_map, length_positions]) _ i (rowMajor_lt hrest)]
    simp [hi, ih]

theorem exists_inside (ds : List Nat) {s : Nat} (h : s < volume ds) :
    ∃ ix, Inside ds ix ∧ rowMajor ds ix = s := by
  induction ds generalizing s with
  | nil =>
    rw [volume, Nat.lt_one_iff] at h
    exact ⟨[], .nil, h.symm⟩
  | cons d ds ih =>
    rw [volume] at h
    have hpos : 0 < volume ds := Nat.pos_of_ne_zero fun e => by simp [e] at h
    obtain ⟨is, his, e⟩ := ih (Nat.mod_lt s hpos)
    refine ⟨s / volume ds :: is, .cons ?_ his, ?_⟩
    · exact Nat.div_lt_of_lt_mul (by rwa [Nat.mul_comm] at h)
    · rw [rowMajor, e, Nat.mul_comm]
      exact Nat.div_add_mod s (volume ds)

theorem eraseDups_of_nodup [DecidableEq β] {l : List β} (h : l.Nodup) : l.eraseDups = l := by
  induction l with
  | nil => rfl
  | cons a l ih =>
    rw [nodup_cons] at h
    rw [eraseDups_cons]
    have hf : l.filter (fun b => !b == a) = l := by
      refine filter_eq_self.mpr fun b hb => ?_
      have : b ≠ a := fun e => h.1 (e ▸ hb)
      simpa using this
    rw [hf, ih h.2]

variable {perm : List Nat}

namespace Grid

variable {α : Type} {g : Grid α}

section
variable [Inhabited α]

theorem cell_ofFn {shape ix : List Nat} (h : Inside shape ix) (f : List Nat → α) :
    (ofFn shape f).cell ix = f ix := by
  simp [cell, ofFn, getElem?_positions h]

theorem ext_cells {g h : Grid α} (hshape : g.shape = h.shape)
    (hcell : ∀ ix, Inside g.shape ix → g.cell ix = h.cell ix) : g = h := by
  obtain ⟨shape, data, hg⟩ := g
  obtain ⟨shape', data', hh⟩ := h
  cases hshape
  congr 1
  refine Array.ext (hg.trans hh.symm) fun s hs hs' => ?_
  obtain ⟨ix, hix, rfl⟩ := exists_inside shape (hg ▸ hs)
  simpa [cell, hs, hs'] using hcell ix hix

/-! ## Reordered axes -/

theorem sourcePosition_map {perm jx : List Nat} (hlen : perm.length = jx.length)
    (hall : ∀ a < jx.length, a ∈ perm) : sourcePosition perm (perm.map fun a => jx.getD a 0) = jx := by
  refine ext_getElem (by simp [sourcePosition, hlen]) fun a ha ha' => ?_
  have hmem := hall a ha'
  have hidx : perm.idxOf a < perm.length := idxOf_lt_length_of_mem hmem
  simp [sourcePosition, hidx, ha']

theorem cell_permute (jx : List Nat) (hlen : perm.length = jx.length) (hall : ∀ a < jx.length, a ∈ perm)
    (hin : Inside (perm.map fun a => g.shape.getD a 0) (perm.map fun a => jx.getD a 0)) :
    (g.permute perm).cell (perm.map fun a => jx.getD a 0) = g.cell jx := by
  rw [permute, cell_ofFn hin, sourcePosition_map hlen hall]

variable {rank : Nat}

theorem axis_ofNat {a : Nat} (h : a < rank) : axis rank (a : Int) = .ok a := by
  have h1 : ¬(a : Int) < 0 := by omega
  simp [axis, h1, h]

theorem mapM_axis (h : ∀ a ∈ perm, a < rank) : (perm.map Int.ofNat).mapM (axis rank) = .ok perm := by
  induction perm with
  | nil => rfl
  | cons a perm ih =>
    rw [map_cons, mapM_cons, ih fun b hb => h b (.tail _ hb)]
    rw [show Int.ofNat a = a from rfl, axis_ofNat (h a (.head _))]
    rfl

theorem transpose_eq (perm : List Nat) (hlen : perm.length = g.rank) (hlt : ∀ a ∈ perm, a < g.rank) (hnd : perm.Nodup) :
    g.transpose (perm.map Int.ofNat) = .ok (g.permute perm) := by
  have hall : ((perm.map Int.ofNat).length == g.rank) = true := by simp [hlen]
  have honce : (perm.eraseDups.length == perm.length) = true := by simp [eraseDups_of_nodup hnd]
  simp only [transpose, mapM_axis hlt, hall, honce, require, ite_true, bind, Except.bind, pure, Except.pure]

end

/-! ## Other shapes -/

theorem reshape_of_complete {dims : List Int} (h : completeShape g.size dims = .ok ds) :
    g.reshape dims = .ok ⟨ds, g.data, (volume_completeShape h).symm⟩ := by
  rw [reshape]
  split
  · rename_i hds
    cases hds.symm.trans h
    rfl
  · rename_i hds
    cases hds.symm.trans h

theorem reshape_eq (h : volume ds = g.size) : g.reshape (ds.map Int.ofNat) = .ok ⟨ds, g.data, h.symm⟩ := by
  have hneg : (ds.map Int.ofNat).filter (· < 0) = [] := by
    simp [filter_eq_nil_iff]
  have hback : (ds.map Int.ofNat).map Int.toNat = ds := by
    rw [map_map]
    exact map_id'' (fun _ => rfl) ds
  have hsize : (volume ds == g.size) = true := by simp [h]
  refine reshape_of_complete ?_
  simp only [completeShape, hneg, hback, hsize, require, ite_true, bind, Except.bind, pure, Except.pure]

theorem reshape_open {n : Nat} (hpos : 0 < volume ds) (h : volume (ds ++ [n]) = g.size) :
    g.reshape (ds.map Int.ofNat ++ [-1]) = .ok ⟨ds ++ [n], g.data, h.symm⟩ := by
  have h : volume ds * n = g.size := by simpa [volume_append, volume] using h
  have hneg : (ds.map Int.ofNat ++ [-1]).filter (· < 0) = [-1] := by
    simp [filter_eq_nil_iff]
  have hkeep : (ds.map Int.ofNat ++ [-1]).filter (· ≥ 0) = ds.map Int.ofNat := by
    simp
  have hback : (ds.map Int.ofNat).map Int.toNat = ds := by
    rw [map_map]
    exact map_id'' (fun _ => rfl) ds
  have hdiv : g.size / volume ds = n := by rw [← h, Nat.mul_div_cancel_left _ hpos]
  have hmod : g.size % volume ds = 0 := by rw [← h, Nat.mul_mod_right]
  have hknown : (volume ds != 0 && g.size % volume ds == 0) = true := by
    simp [hmod, Nat.pos_iff_ne_zero.mp hpos]
  have hfill : (ds.map Int.ofNat ++ [-1]).map (fun d : Int => if d < 0 then n else d.toNat) = ds ++ [n] := by
    rw [map_append, map_map]
    exact congrArg (· ++ [n]) (map_id'' (fun _ => rfl) ds)
  refine reshape_of_complete ?_
  simp only [completeShape, hneg, hkeep, hback, hknown, hdiv, hfill, beq_self_eq_true, require, ite_true,
    bind, Except.bind, pure, Except.pure]

end Grid

/-! ## One order of axes after another -/

abbrev AxisOrder (rank : Nat) (perm : List Nat) : Prop := perm.Perm (List.range rank)

theorem Inside.getD (h : Inside A jx) {a : Nat} (ha : a < A.length) : jx.getD a 0 < A.getD a 0 := by
  induction h generalizing a with
  | nil => simp at ha
  | cons hi _ ih =>
    cases a with
    | zero => simpa using hi
    | succ a => simpa using ih (by simpa using ha)

theorem Inside.map {perm : List Nat} (h : Inside A jx) (hlt : ∀ a ∈ perm, a < A.length) :
    Inside (perm.map fun a => A.getD a 0) (perm.map fun a => jx.getD a 0) := by
  induction perm with
  | nil => exact .nil
  | cons a perm ih =>
    exact .cons (h.getD (hlt a (.head _))) (ih fun b hb => hlt b (.tail _ hb))

def composed (perm next : List Nat) : List Nat := next.map fun a => perm.getD a 0

theorem map_getD_range {xs : List Nat} (h : xs.length = n) : (range n).map (fun a => xs.getD a 0) = xs := by
  refine ext_getElem (by simp [h]) fun a _ ha => ?_
  simp [ha]

section
variable {rank : Nat} {next : List Nat}

theorem AxisOrder.length (h : AxisOrder rank perm) : perm.length = rank := by
  rw [h.length_eq, length_range]

theorem AxisOrder.mem (h : AxisOrder rank perm) {a : Nat} : a ∈ perm ↔ a < rank := by
  rw [h.mem_iff, mem_range]

theorem AxisOrder.once (h : AxisOrder rank perm) : perm.Nodup := h.nodup_iff.mpr nodup_range

theorem AxisOrder.composed (hp : AxisOrder rank perm) (hn : AxisOrder rank next) :
    AxisOrder rank (composed perm next) := by
  have hmap := hn.map fun a => perm.getD a 0
  rw [map_getD_range hp.length] at hmap
  exact hmap.trans hp

theorem map_composed (hp : AxisOrder rank perm) (hn : AxisOrder rank next) (xs : List Nat) :
    (NetBridge.composed perm next).map (fun a => xs.getD a 0) =
      next.map fun a => (perm.map fun a => xs.getD a 0).getD a 0 := by
  rw [NetBridge.composed, map_map]
  refine map_congr_left fun a ha => ?_
  have hlt : a < perm.length := hp.length ▸ hn.mem.mp ha
  simp [hlt]

end

namespace Grid

theorem length_sourcePosition (perm ix : List Nat) : (sourcePosition perm ix).length = perm.length := by
  simp [sourcePosition]

theorem map_sourcePosition {rank : Nat} {perm ix : List Nat} (hp : AxisOrder rank perm) (h : ix.length = rank) :
    perm.map (fun a => (sourcePosition perm ix).getD a 0) = ix := by
  refine ext_getElem (by simp [hp.length, h]) fun i hi hi' => ?_
  have hi : i < perm.length := by simpa using hi
  have hlt : perm[i] < perm.length := by
    rw [hp.length]
    exact hp.mem.mp (getElem_mem hi)
  have hidx : perm.idxOf perm[i] = i := hp.once.idxOf_getElem i hi
  simp [sourcePosition, hlt, hidx, hi']

theorem inside_sourcePosition {shape perm ix : List Nat} (hp : AxisOrder shape.length perm)
    (h : Inside (perm.map fun a => shape.getD a 0) ix) : Inside shape (sourcePosition perm ix) := by
  refine forall₂_iff_get.mpr ⟨by rw [length_sourcePosition, hp.length], fun a ha ha' => ?_⟩
  have hmem : a ∈ perm := hp.mem.mpr ha'
  have hidx : perm.idxOf a < perm.length := idxOf_lt_length_of_mem hmem
  have hat := h.getD (by simpa using hidx)
  simpa [sourcePosition, hidx, ha'] using hat

variable {α : Type} [Inhabited α] {perm next : List Nat} {g : Grid α}

theorem cell_permute_order (hp : AxisOrder g.rank perm) {jx : List Nat} (h : Inside g.shape jx) :
    (g.permute perm).cell (perm.map fun a => jx.getD a 0) = g.cell jx := by
  have hlen : jx.length = g.rank := h.length_eq
  refine cell_permute jx (hp.length.trans hlen.symm) (fun a ha => hp.mem.mpr (hlen ▸ ha)) (h.map fun a ha => ?_)
  exact hp.mem.mp ha

theorem permute_permute (hp : AxisOrder g.rank perm) (hn : AxisOrder g.rank next) :
    (g.permute perm).permute next = g.permute (composed perm next) := by
  have hrank : (g.permute perm).rank = g.rank := by simp [permute, ofFn, rank, hp.length]
  have hn' : AxisOrder (g.permute perm).rank next := hrank ▸ hn
  refine ext_cells (map_composed hp hn g.shape).symm fun ix hix => ?_
  -- the cell asked for lies at `kx` after the first reordering, and at `jx` before it
  let kx := sourcePosition next ix
  have hkx : Inside (g.permute perm).shape kx := inside_sourcePosition hn' hix
  let jx := sourcePosition perm kx
  have hjx : Inside g.shape jx := inside_sourcePosition hp hkx
  have hk : perm.map (fun a => jx.getD a 0) = kx :=
    map_sourcePosition hp (hkx.length_eq.trans hrank)
  have hi : next.map (fun a => kx.getD a 0) = ix :=
    map_sourcePosition hn (by rw [hix.length_eq]; exact (length_map ..).trans hn.length)
  calc ((g.permute perm).permute next).cell ix
      = (g.permute perm).cell kx := by rw [← hi, cell_permute_order hn' hkx]
    _ = g.cell jx := by rw [← hk, cell_permute_order hp hjx]
    _ = (g.permute (composed perm next)).cell ix := by
        rw [← cell_permute_order (hp.composed hn) hjx, map_composed hp hn, hk, hi]

theorem permute_range : g.permute (range g.rank) = g := by
  have hshape : (g.permute (range g.rank)).shape = g.shape := map_getD_range rfl
  refine ext_cells hshape fun ix hix => ?_
  have hin : Inside g.shape ix := hshape ▸ hix
  conv_lhs => rw [← map_getD_range hin.length_eq]
  exact cell_permute_order (.refl _) hin

end Grid

namespace Tensor

def reordered (t : Tensor) (perm : List Nat) : Tensor := ⟨t.elem, t.cells.permute perm⟩

variable {t : Tensor} {next : List Nat}

theorem transpose_reordered (h : AxisOrder t.cells.rank perm) :
    t.transpose (perm.map Int.ofNat) = .ok (t.reordered perm) := by
  rw [transpose, Grid.transpose_eq perm h.length (fun a ha => h.mem.mp ha) h.once]
  rfl

theorem rank_reordered : (t.reordered perm).cells.rank = perm.length := by
  simp [reordered, Grid.permute, Grid.ofFn, Grid.rank]

theorem reordered_reordered (hp : AxisOrder t.cells.rank perm) (hn : AxisOrder t.cells.rank next) :
    (t.reordered perm).reordered next = t.reordered (composed perm next) := by
  rw [reordered, reordered, Grid.permute_permute hp hn, reordered]

theorem reordered_range : t.reordered (range t.cells.rank) = t := by
  rw [reordered, Grid.permute_range]

theorem transpose_back (hp : AxisOrder t.cells.rank perm) (hn : AxisOrder t.cells.rank next)
    (h : composed perm next = range t.cells.rank) :
    (t.reordered perm).transpose (next.map Int.ofNat) = .ok t := by
  have hrank : (t.reordered perm).cells.rank = t.cells.rank := rank_reordered.trans hp.length
  rw [transpose_reordered (hrank ▸ hn), reordered_reordered hp hn, h, reordered_range]

end Tensor

/-! ## Orders that move the channels

A kernel has two axes for channels, before its spatial axes or behind them; an image has one. -/

/-! ## Kernels -/

def inward (n : Nat) : List Nat := (List.range n).map (· + 2) ++ [1, 0]

def outward (n : Nat) : List Nat := [n + 1, n] ++ List.range n

theorem range_add_two (n : Nat) : range (n + 2) = [0, 1] ++ (range n).map (· + 2) := by
  rw [range_succ_eq_map, range_succ_eq_map, map_cons, map_map]
  rfl

theorem axisOrder_inward (n : Nat) : AxisOrder (n + 2) (inward n) := by
  rw [AxisOrder, range_add_two]
  exact perm_append_comm.trans ((List.Perm.swap 0 1 []).append_right _)

theorem axisOrder_outward (n : Nat) : AxisOrder (n + 2) (outward n) := by
  rw [AxisOrder, range_succ, range_succ, append_assoc]
  exact perm_append_comm.trans ((List.Perm.swap n (n + 1) []).append_left _)

theorem outward_inward (n : Nat) : composed (inward n) (outward n) = range (n + 2) := by
  have hspatial : (range n).map (fun a => (inward n).getD a 0) = (range n).map (· + 2) := by
    apply map_congr_left
    intro a ha
    have ha : a < n := mem_range.mp ha
    simp [inward, getElem?_append, ha]
  rw [composed, outward, map_append, hspatial, range_add_two]
  simp [inward]

theorem transpose_outward {t : Tensor} (ht : t.cells.rank = n + 2) :
    (t.reordered (inward n)).transpose ((outward n).map Int.ofNat) = .ok t :=
  Tensor.transpose_back (ht ▸ axisOrder_inward n) (ht ▸ axisOrder_outward n) (ht ▸ outward_inward n)

theorem kernelChannelsLast_eq (n : Nat) : Axes.kernelChannelsLast (n + 2) = (inward n).map Int.ofNat := by
  rw [Axes.kernelChannelsLast, range_add_two, inward, map_append]
  rfl

theorem kernelChannelsFirst_eq (n : Nat) : Axes.kernelChannelsFirst n = (outward n).map Int.ofNat := by
  rfl

theorem kernelOrder_eq (hn : n = 1 ∨ n = 2 ∨ n = 3) :
    Target.MxNet.kernelOrder n = .ok ((outward n).map Int.ofNat) := by
  rcases hn with rfl | rfl | rfl <;> rfl

/-! ## Images -/

def imageFront (n : Nat) : List Nat := n :: List.range n

def imageBack (n : Nat) : List Nat := (List.range n).map (· + 1) ++ [0]

theorem axisOrder_imageFront (n : Nat) : AxisOrder (n + 1) (imageFront n) := by
  rw [AxisOrder, range_succ]
  exact (perm_append_singleton n (range n)).symm

theorem axisOrder_imageBack (n : Nat) : AxisOrder (n + 1) (imageBack n) := by
  rw [AxisOrder, range_succ_eq_map]
  exact perm_append_singleton 0 _

theorem imageBack_imageFront (n : Nat) : composed (imageFront n) (imageBack n) = range (n + 1) := by
  have hspatial : ((range n).map (· + 1)).map (fun a => (imageFront n).getD a 0) = range n := by
    refine ext_getElem (by simp) fun a _ ha => ?_
    have ha : a < n := by simpa using ha
    simp [imageFront, ha]
  rw [composed, imageBack, map_append, hspatial, range_succ]
  rfl

theorem imageOut_eq (n : Nat) : Axes.imageOut n = (imageBack n).map Int.ofNat := by
  rw [Axes.imageOut, imageBack, map_append, map_map]
  rfl

end NetBridge
