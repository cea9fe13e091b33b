import NetBridge.Target.Cntk
import NetBridge.Target.Keras
import NetBridge.Target.MxNet
import NetBridge.Target.PyTorch
import NetBridge.Proofs.RunSteps

/-!
# Pads of the spatial axes

The flat pads of a layer are its start pads followed by its end pads; the axes between batch and channels are spatial.
All targets find the same two numbers for a spatial axis.
-/

namespace NetBridge

open List Value Padding

variable {pads : List Int} {n : Nat}

namespace Padding

def ofAxis (pads : List Int) (n i : Nat) : Int × Int := (pads.getD i 0, pads.getD (n + i) 0)

def spatial (pads : List Int) (n : Nat) : List (Int × Int) :=
  (List.range (n - 2)).map fun i => ofAxis pads n (i + 1)

@[simp] theorem length_spatial : (spatial pads n).length = n - 2 := by simp [spatial]

theorem getElem?_spatial (pads : List Int) {i : Nat} (hi : 1 ≤ i) (hin : i ≤ n - 2) :
    (spatial pads n)[i - 1]? = some (ofAxis pads n i) := by
  have hr : (range (n - 2))[i - 1]? = some (i - 1) := getElem?_range (by omega)
  rw [spatial, getElem?_map, hr, Option.map_some, Nat.sub_add_cancel hi]

theorem zip_halves (hlen : pads.length = 2 * n) :
    (pads.take n).zip (pads.drop n) = (range n).map (ofAxis pads n) := by
  refine ext_getElem (by simp; omega) fun i h₁ h₂ => ?_
  have hi : i < n := by simpa using h₂
  have h : i < pads.length ∧ n + i < pads.length := by omega
  simp [ofAxis, h.1, h.2]

theorem pairs_eq (hlen : pads.length = 2 * n) : pairs pads = .ok ((range n).map (ofAxis pads n)) := by
  have hn : pads.length / 2 = n := by omega
  have he : pads.length % 2 = 0 := by omega
  simp only [pairs, he, hn, ↓reduceIte, zip_halves hlen]

end Padding

namespace Value

variable {α : Type}

theorem slice_eq {xs : List α} {start stop : Int} {a b : Nat} (ha : bound xs.length start = a)
    (hb : bound xs.length stop = b) : slice xs (some start) (some stop) = (xs.take b).drop a := by
  simp only [slice, Option.map_some, Option.getD_some, ha, hb]

theorem inner_eq (xs : List α) : inner xs = (xs.take (xs.length - 1)).drop 1 := by
  cases xs with
  | nil => rfl
  | cons a xs => exact slice_eq (by simp [bound]) (by unfold bound; grind)

theorem toInts_ints (ns : List Int) : (list (ns.map .int)).toInts = .ok ns := by
  have hmap : (ns.map int).mapM toInt = .ok ns := by
    induction ns with
    | nil => rfl
    | cons n ns ih =>
      rw [map_cons, mapM_cons, ih]
      rfl
  simpa [toInts, elements, bind, Except.bind] using hmap

end Value

namespace Padding

theorem inner_rows : inner ((range n).map (ofAxis pads n)) = spatial pads n := by
  refine ext_getElem (by simp [inner_eq]; omega) fun i h₁ h₂ => ?_
  simp [inner_eq, spatial]

theorem drop_rows (hn : 2 ≤ n) :
    ((range n).map (ofAxis pads n)).drop 1 = spatial pads n ++ [ofAxis pads n (n - 1)] := by
  refine ext_getElem (by simp; omega) fun i h₁ h₂ => ?_
  rw [getElem_append]
  split
  · simp [spatial]
  · have hi : i + 1 = n - 1 := by simp at *; omega
    simp [hi]

theorem getElem?_sides (ps : List (Int × Int)) (i : Nat) :
    (ps.flatMap fun p => [p.1, p.2])[2 * i]? = ps[i]?.map (·.1) ∧
      (ps.flatMap fun p => [p.1, p.2])[2 * i + 1]? = ps[i]?.map (·.2) := by
  induction ps generalizing i with
  | nil => simp
  | cons p ps ih =>
    cases i with
    | zero => simp
    | succ i => simpa [Nat.mul_succ] using ih i

theorem length_sides (ps : List (Int × Int)) : (ps.flatMap fun p => [p.1, p.2]).length = 2 * ps.length := by
  simp [length_flatMap, Nat.mul_comm]

theorem getElem?_reverse_spatial (pads : List Int) {i : Nat} (hi : 1 ≤ i) (hin : i ≤ n - 2) :
    (spatial pads n).reverse[n - 2 - i]? = some (ofAxis pads n i) := by
  have hlt : n - 2 - i < (spatial pads n).length := by rw [length_spatial]; omega
  rw [getElem?_reverse hlt, length_spatial, show n - 2 - 1 - (n - 2 - i) = i - 1 by omega]
  exact getElem?_spatial pads hi hin

end Padding

namespace Target

open Code Run

variable {v : Vertex Layer} {s : Scope}

theorem padPairs_outcome (hlen : pads.length = 2 * n) (hpads : v.item.get "pads" = .ok (.list (pads.map .int))) :
    (padPairs v).outcome s = (.ok ((range n).map (ofAxis pads n)), s) := by
  refine lift_bind_ok hpads (bind_eq_ok.mpr ⟨pads, s, ?_, ?_⟩)
  · exact lift_ok (toInts_ints pads)
  · exact lift_ok (pairs_eq hlen)

theorem Keras.spatialPads_outcome (hlen : pads.length = 2 * n)
    (hpads : v.item.get "pads" = .ok (.list (pads.map .int))) :
    (Keras.spatialPads v).outcome s = (.ok (spatial pads n), s) :=
  bind_ok (padPairs_outcome hlen hpads) (pure_eq_ok.mpr ⟨inner_rows, rfl⟩)

theorem PyTorch.layerPads_outcome (hlen : pads.length = 2 * n)
    (hpads : v.item.get "pads" = .ok (.list (pads.map .int))) :
    (PyTorch.layerPads v).outcome s =
      (.ok ((spatial pads n).reverse.flatMap fun p => [p.1, p.2]), s) := by
  have hsides : PyTorch.spatialPads pads =
      .ok ((spatial pads n).reverse.flatMap fun p => [p.1, p.2]) := by
    rw [PyTorch.spatialPads, pairs_eq hlen, ← inner_rows]
    rfl
  refine lift_bind_ok hpads (bind_eq_ok.mpr ⟨pads, s, ?_, ?_⟩)
  · exact lift_ok (toInts_ints pads)
  · exact lift_ok hsides

def Cntk.padBefore (v : Vertex Layer) (x : String) (pattern : List (Int × Int)) : Cntk.Padded :=
  ⟨[.assign 1 (v.variableName ++ "_pad") ["cntk.pad(", .use x, ", pattern=",
    listText (pattern.map fun p => intTuple [p.1, p.2]), ")"]], v.variableName ++ "_pad", false⟩

theorem Cntk.padded_outcome {x : String} (hn : 2 ≤ n) (hlen : pads.length = 2 * n)
    (hpads : v.item.get "pads" = .ok (.list (pads.map .int)))
    (hauto : (autoPad? v).outcome s = (.ok none, s)) (hx : (input v).outcome s = (.ok x, s)) :
    (Cntk.padded v).outcome s = (.ok (if total pads = 0 then ⟨[], x, false⟩
      else Cntk.padBefore v x (spatial pads n ++ [ofAxis pads n (n - 1)])), s) := by
  have hnone : isNoneValue (.list (pads.map .int)) = .ok (isNone pads) := by
    rw [isNoneValue, toInts_ints]
    rfl
  have hpattern : Cntk.innerPads pads = spatial pads n ++ [ofAxis pads n (n - 1)] := by
    rw [Cntk.innerPads, show pads.length / 2 = n by omega, zip_halves hlen, drop_rows hn]
  refine bind_ok hauto (lift_bind_ok hpads ?_)
  refine lift_bind_ok hnone ?_
  -- only the sum of the pads decides whether there are any
  by_cases h : total pads = 0
  · rw [if_pos h, show isNone pads = true from beq_iff_eq.mpr h]
    exact bind_ok hx rfl
  · rw [if_neg h, show isNone pads = false from beq_eq_false_iff_ne.mpr h]
    refine lift_bind_ok (toInts_ints pads) ?_
    rw [hpattern]
    exact bind_ok hx rfl

theorem MxNet.slice_starts (hn : 2 ≤ n) (hlen : pads.length = 2 * n) :
    slice pads (some 1) (some ((pads.length : Int) / 2 - 1)) = (spatial pads n).map (·.1) := by
  rw [slice_eq (a := 1) (b := n - 1) (by unfold bound; grind) (by unfold bound; grind)]
  refine ext_getElem (by simp; omega) fun i h₁ h₂ => ?_
  have hi : i + 1 < pads.length := by simp at h₂; omega
  simp [spatial, ofAxis, hi]

theorem MxNet.slice_ends (hn : 2 ≤ n) (hlen : pads.length = 2 * n) :
    slice pads (some ((pads.length : Int) / 2 + 1)) (some (-1)) = (spatial pads n).map (·.2) := by
  rw [slice_eq (a := n + 1) (b := 2 * n - 1) (by unfold bound; grind)
    (by unfold bound; grind)]
  refine ext_getElem (by simp; omega) fun i h₁ h₂ => ?_
  have hi : n + (i + 1) < pads.length := by simp at h₂; omega
  simp [spatial, ofAxis, hi, Nat.add_comm, Nat.add_left_comm]

theorem MxNet.ofFlat_eq (hn : 2 ≤ n) (hlen : pads.length = 2 * n) :
    MxNet.Pads.ofFlat pads = .ok (if (spatial pads n).all fun p => p.1 == p.2
      then .inner ((spatial pads n).map (·.1))
      else .outer ([0, 0, 0, 0] ++ (spatial pads n).flatMap fun p => [p.1, p.2])) := by
  have heven : (pads.length % 2 == 0) = true := by simp; omega
  have hcount : ((pads.length : Int) / 2 - 2).toNat = n - 2 := by omega
  -- the cuts to `n - 2` pads cut nothing off
  have hcut : ∀ f : Int × Int → Int, ((spatial pads n).map f).take (n - 2) =
      (spatial pads n).map f := fun f => take_of_length_le (by simp)
  have hzip : ((spatial pads n).map (·.1)).zip ((spatial pads n).map (·.2)) =
      spatial pads n := by rw [← unzip_fst, ← unzip_snd, zip_unzip]
  unfold MxNet.Pads.ofFlat
  simp only [heven, slice_starts hn hlen, slice_ends hn hlen, hcount, hcut, hzip]
  by_cases h : ((spatial pads n).all fun p => p.1 == p.2) = true
  · rw [if_pos h, if_pos h]
    rfl
  · rw [if_neg h, if_neg h]
    rfl

/-- All targets give a spatial axis the same two pads. The one that pads in a line of its own does so
unless the pads add up to nothing; the one that can pad inside a layer does so unless the two pads of
some axis differ. -/
theorem spatial_pads_agree {n : Nat} {pads : List Int} (hn : 3 ≤ n) (hlen : pads.length = 2 * n)
    {v : Vertex Layer} {s : Scope} {x : String}
    (hpads : v.item.get "pads" = .ok (.list (pads.map .int)))
    (hauto : (autoPad? v).outcome s = (.ok none, s)) (hx : (input v).outcome s = (.ok x, s)) :
    ∃ rows spatial sides pattern,
      Padding.pairs pads = .ok rows ∧ rows.length = n ∧
      (Keras.spatialPads v).outcome s = (.ok spatial, s) ∧ spatial.length = n - 2 ∧
      (PyTorch.layerPads v).outcome s = (.ok sides, s) ∧ sides.length = 2 * (n - 2) ∧
      (Cntk.padded v).outcome s = (.ok (if Padding.total pads = 0 then ⟨[], x, false⟩
        else Cntk.padBefore v x pattern), s) ∧ pattern.length = n - 1 ∧
      (∀ i, 1 ≤ i → i ≤ n - 2 →
        rows[i]? = some (pads.getD i 0, pads.getD (n + i) 0) ∧
        spatial[i - 1]? = some (pads.getD i 0, pads.getD (n + i) 0) ∧
        sides[2 * (n - 2 - i)]? = some (pads.getD i 0) ∧
        sides[2 * (n - 2 - i) + 1]? = some (pads.getD (n + i) 0) ∧
        pattern[i - 1]? = some (pads.getD i 0, pads.getD (n + i) 0)) ∧
      ((∃ i, 1 ≤ i ∧ i ≤ n - 2 ∧ pads.getD i 0 ≠ pads.getD (n + i) 0) →
        MxNet.Pads.ofFlat pads = .ok (.outer ([0, 0, 0, 0] ++ (List.range (n - 2)).flatMap fun i =>
          [pads.getD (i + 1) 0, pads.getD (n + (i + 1)) 0]))) ∧
      ((∀ i, 1 ≤ i → i ≤ n - 2 → pads.getD i 0 = pads.getD (n + i) 0) →
        MxNet.Pads.ofFlat pads = .ok (.inner ((List.range (n - 2)).map fun i => pads.getD (i + 1) 0))) := by
  refine ⟨_, _, _, _, pairs_eq hlen, by simp, Keras.spatialPads_outcome hlen hpads, by simp,
    PyTorch.layerPads_outcome hlen hpads, ?_, Cntk.padded_outcome (by omega) hlen hpads hauto hx, ?_, ?_, ?_, ?_⟩
  · rw [length_sides, length_reverse, length_spatial]
  · simp; omega
  · intro i hi hin
    have hat := getElem?_spatial pads hi hin
    have hback := getElem?_reverse_spatial pads hi hin
    obtain ⟨hstart, hend⟩ := getElem?_sides (spatial pads n).reverse (n - 2 - i)
    rw [hback] at hstart hend
    refine ⟨?_, hat, hstart, hend, ?_⟩
    · rw [getElem?_map, getElem?_range (by omega)]
      rfl
    · rw [getElem?_append_left (by simp; omega)]
      exact hat
  · rintro ⟨i, hi, hin, hne⟩
    have hsome : ¬((spatial pads n).all fun p => p.1 == p.2) = true := by
      intro hall
      have := all_eq_true.mp hall _ (mem_of_getElem? (getElem?_spatial pads hi hin))
      exact hne (beq_iff_eq.mp this)
    rw [MxNet.ofFlat_eq (by omega) hlen, if_neg hsome, spatial, flatMap_map]
    rfl
  · intro hsame
    have hall : ((spatial pads n).all fun p => p.1 == p.2) = true := by
      simp only [spatial, all_map, all_eq_true, mem_range]
      intro i hi
      exact beq_iff_eq.mpr (hsame (i + 1) (by omega) (by omega))
    rw [MxNet.ofFlat_eq (by omega) hlen, if_pos hall, spatial, map_map]
    rfl

def paddedVertex (pads : List Int) : Vertex Layer :=
  { name := "c", item := { name := "c", op := "Conv", inputs := ["x"]
                           attrs := .ofList [("pads", .list { ints := pads })] }, sources := ["x"] }

def paddedScope (pads : List Int) : Scope :=
  let image : Vertex Layer := { name := "x", item := { name := "x", op := "DataInput" }, targets := ["c"] }
  { graph := { network := {}, graph := { vertices := .ofList [("x", image), ("c", paddedVertex pads)] } } }

theorem spatial_pads_agree_uneven : Padding.pairs [0, 1, 2, 0, 0, 3, 4, 0] =
      .ok [(0, 0), (1, 3), (2, 4), (0, 0)] ∧
    (∃ sides, (PyTorch.layerPads (paddedVertex [0, 1, 2, 0, 0, 3, 4, 0])).outcome
        (paddedScope [0, 1, 2, 0, 0, 3, 4, 0]) = (.ok sides, paddedScope [0, 1, 2, 0, 0, 3, 4, 0]) ∧
      sides[2]? = some 1 ∧ sides[3]? = some 3) ∧
    MxNet.Pads.ofFlat [0, 1, 2, 0, 0, 3, 4, 0] = .ok (.outer [0, 0, 0, 0, 1, 3, 2, 4]) := by
  have hlen : [0, 1, 2, 0, 0, 3, 4, 0].length = 2 * 4 := rfl
  obtain ⟨_, _, sides, _, -, -, -, -, hsides, -, -, -, hat, houter, -⟩ :=
    spatial_pads_agree (by decide) hlen (v := paddedVertex [0, 1, 2, 0, 0, 3, 4, 0])
      (s := paddedScope [0, 1, 2, 0, 0, 3, 4, 0]) rfl rfl rfl
  obtain ⟨-, -, hstart, hend, -⟩ := hat 1 (by decide) (by decide)
  exact ⟨rfl, ⟨sides, hsides, hstart, hend⟩, houter ⟨1, by decide, by decide, by decide⟩⟩

/-- Pads that cancel out count as none: the start pad of the first spatial axis gets lost. -/
theorem cancelling_pads_dropped : Padding.ofAxis [0, 1, -1, 0, 0, 0, 0, 0] 4 1 = (1, 0) ∧
    (Cntk.padded (paddedVertex [0, 1, -1, 0, 0, 0, 0, 0])).outcome (paddedScope [0, 1, -1, 0, 0, 0, 0, 0]) =
      (.ok ⟨[], "x", false⟩, paddedScope [0, 1, -1, 0, 0, 0, 0, 0]) :=
  ⟨rfl, rfl⟩

end Target

end NetBridge
