import NetBridge.Config.Weights
import NetBridge.Proofs.RunSteps

/-!
# Weight files are read as they were written

The loaders take the tensors in the order of the writers, and each leaves the reel where the numbers of its layer end,
so all layers are restored (`layers_restored`).
-/

namespace NetBridge.Config

open Run

variable {α : Type} {done rest : List α}

/-! ## One layer -/

/-- A reel that stands behind some of its numbers. -/
def reelAt (done todo : List α) : Reel α := ⟨(done ++ todo).toArray, done.length⟩

theorem take_reelAt (done xs rest : List α) :
    (reelAt done (xs ++ rest)).take xs.length = .ok (xs, reelAt (done ++ xs) rest) := by
  simp [Reel.take, reelAt]

/-- The tensor has the shape of the other, whatever numbers it holds. -/
def Fits (blank g : Grid α) : Prop := blank.shape = g.shape

theorem Fits.size {blank g : Grid α} (h : Fits blank g) : blank.size = g.size := by
  rw [Grid.size, Grid.size, blank.full, g.full, h]

theorem Fits.refilled {blank g : Grid α} (h : Fits blank g) : blank.refilled g.toList = .ok g := by
  have hlength : g.toList.length = blank.size := h.size.symm
  obtain ⟨shape, data, hfull⟩ := g
  obtain rfl : blank.shape = shape := h
  exact dif_pos hlength

theorem refill_reelAt {blank g : Grid α} (h : Fits blank g) (n : Nat) (hn : n = g.size) (main : Affine α)
    (norm : Norm α) : (refill n blank).outcome ⟨reelAt done (g.toList ++ rest), main, norm⟩ =
      (.ok g, ⟨reelAt (done ++ g.toList) rest, main, norm⟩) := by
  have htake := take_reelAt done g.toList rest
  rw [show g.toList.length = n from hn.symm] at htake
  refine Run.bind_ok rfl (Run.bind_ok (congrArg (fun e => (e, Loading.mk _ main norm)) htake) ?_)
  exact Run.bind_ok (congrArg (fun e => (e, Loading.mk _ main norm)) h.refilled) rfl

variable {main : Affine α} {weight : Grid α}

theorem loadWeight_reelAt (h : Fits main.weight weight) (norm : Norm α) :
    loadWeight.outcome ⟨reelAt done (weight.toList ++ rest), main, norm⟩ =
      (.ok (), ⟨reelAt (done ++ weight.toList) rest, { main with weight }, norm⟩) :=
  bind_ok rfl (bind_ok (refill_reelAt h _ h.size main norm) rfl)

theorem loadAffine_reelAt {a : Affine α} (hbias : Fits main.bias a.bias) (hweight : Fits main.weight a.weight)
    (norm : Norm α) : loadAffine.outcome ⟨reelAt done (a.stored ++ rest), main, norm⟩ =
      (.ok (), ⟨reelAt (done ++ a.stored) rest, a, norm⟩) := by
  rw [Affine.stored, List.append_assoc, ← List.append_assoc done]
  have hfits : Fits { main with bias := a.bias }.weight a.weight := hweight
  exact bind_ok rfl (bind_ok (refill_reelAt hbias _ hbias.size main norm)
    (bind_ok rfl (loadWeight_reelAt hfits norm)))

/-- The vectors of the first normalisation have the shapes of those of the second, which are of one length. -/
structure Norm.Fits (blank n : Norm α) : Prop where
  bias : Config.Fits blank.bias n.bias
  weight : Config.Fits blank.weight n.weight
  mean : Config.Fits blank.mean n.mean
  variance : Config.Fits blank.variance n.variance
  even : n.weight.size = n.bias.size ∧ n.mean.size = n.bias.size ∧ n.variance.size = n.bias.size

theorem loadNormed_reelAt {blank n : Norm α} (h : blank.Fits n) (hweight : Fits main.weight weight) :
    loadNormed.outcome ⟨reelAt done (n.stored weight ++ rest), main, blank⟩ =
      (.ok (), ⟨reelAt (done ++ n.stored weight) rest, { main with weight }, n⟩) := by
  obtain ⟨hw, hm, hv⟩ := h.even
  have hsize := h.bias.size
  have hbehind : n.stored weight ++ rest = n.bias.toList ++ (n.weight.toList ++ (n.mean.toList ++ (n.variance.toList ++
      (weight.toList ++ rest)))) := by simp [Norm.stored]
  have hdone : done ++ n.stored weight = done ++ n.bias.toList ++ n.weight.toList ++ n.mean.toList ++
      n.variance.toList ++ weight.toList := by simp [Norm.stored]
  rw [hbehind, hdone]
  refine bind_ok rfl (bind_ok (refill_reelAt h.bias _ hsize main blank) (bind_ok rfl ?_))
  refine bind_ok (refill_reelAt h.weight _ (hsize.trans hw.symm) main _) (bind_ok rfl ?_)
  refine bind_ok (refill_reelAt h.mean _ (hsize.trans hm.symm) main _) (bind_ok rfl ?_)
  refine bind_ok (refill_reelAt h.variance _ (hsize.trans hv.symm) main _) (bind_ok rfl ?_)
  exact loadWeight_reelAt hweight n

/-! ## Files of many layers -/

/-- A layer and its tensors. Those of the normalisation count only for a layer that has one; the bias is then the
normalisation's. -/
structure Stored where
  kind : StoredKind
  main : Affine Float
  norm : Norm Float

namespace Stored

def numbers (epsilon : Float) (l : Stored) : Except Fault (List Float) :=
  Loading.written ⟨{ numbers := #[] }, l.main, l.norm⟩ l.kind false epsilon

def load (l : Stored) (r : Reel Float) : Except Fault (Stored × Reel Float) :=
  let load : Run (Loading Float) Unit := if l.kind.hasNorm then loadNormed else loadAffine
  let out := load.outcome ⟨r, l.main, l.norm⟩
  out.1.map fun _ => ({ l with main := out.2.main, norm := out.2.norm }, out.2.reel)

def loadAll : List Stored → Reel Float → Except Fault (List Stored × Reel Float)
  | [], r => .ok ([], r)
  | l :: ls, r => do
    let first ← l.load r
    let others ← loadAll ls first.2
    return (first.1 :: others.1, others.2)

/-- The first layer is of the kind and the sizes of the second. -/
structure Fits (blank l : Stored) : Prop where
  kind : blank.kind = l.kind
  weight : Config.Fits blank.main.weight l.main.weight
  bias : l.kind.hasNorm = false → Config.Fits blank.main.bias l.main.bias
  norm : l.kind.hasNorm = true → blank.norm.Fits l.norm

structure Same (l l' : Stored) : Prop where
  kind : l.kind = l'.kind
  weight : l.main.weight = l'.main.weight
  bias : l'.kind.hasNorm = false → l.main.bias = l'.main.bias
  norm : l'.kind.hasNorm = true → l.norm = l'.norm

def stored (l : Stored) : List Float := if l.kind.hasNorm then l.norm.stored l.main.weight else l.main.stored

variable {l : Stored}

theorem numbers_eq (epsilon : Float) (hkind : l.kind ≠ .folded) : l.numbers epsilon = .ok l.stored := by
  obtain ⟨kind, main, norm⟩ := l
  cases kind with
  | folded => exact absurd rfl hkind
  | _ => rfl

theorem load_reelAt {blank : Stored} (h : blank.Fits l) : ∃ out, out.Same l ∧
    ∀ done rest, blank.load (reelAt done (l.stored ++ rest)) = .ok (out, reelAt (done ++ l.stored) rest) := by
  by_cases hn : l.kind.hasNorm = true
  · refine ⟨{ blank with main := { blank.main with weight := l.main.weight }, norm := l.norm },
      ⟨h.kind, rfl, fun hn' => absurd (hn.symm.trans hn') (by decide), fun _ => rfl⟩, fun done rest => ?_⟩
    rw [load, stored, h.kind, if_pos hn, if_pos hn, loadNormed_reelAt (h.norm hn) h.weight]
    rfl
  · refine ⟨{ blank with main := l.main }, ⟨h.kind, rfl, fun _ => rfl, fun hn' => absurd hn' hn⟩, fun done rest => ?_⟩
    rw [load, stored, h.kind, if_neg hn, if_neg hn, loadAffine_reelAt (h.bias (by simpa using hn)) h.weight]
    rfl

theorem loadAll_reelAt {blanks ls : List Stored} (h : List.Forall₂ Fits blanks ls) :
    ∃ outs, List.Forall₂ Same outs ls ∧ ∀ done rest, loadAll blanks (reelAt done (ls.flatMap stored ++ rest)) =
      .ok (outs, reelAt (done ++ ls.flatMap stored) rest) := by
  induction h with
  | nil => exact ⟨[], .nil, fun done rest => by simp [loadAll]⟩
  | cons hfits _ ih =>
    obtain ⟨out, hsame, hload⟩ := load_reelAt hfits
    obtain ⟨outs, hsames, hloads⟩ := ih
    refine ⟨out :: outs, .cons hsame hsames, fun done rest => ?_⟩
    rw [List.flatMap_cons, List.append_assoc, ← List.append_assoc done]
    exact (ok_bind (hload done _)).trans (ok_bind (hloads _ rest))

end Stored

/-- Layers that are loaded into tensors of their sizes from the file that they were written to are all restored, and the
file is read to its end. -/
theorem layers_restored (epsilon : Float) {ls blanks : List Stored} (hkinds : ∀ l ∈ ls, l.kind ≠ .folded)
    (hfits : List.Forall₂ Stored.Fits blanks ls) :
    ∃ parts loaded, ls.mapM (Stored.numbers epsilon) = .ok parts ∧
      Stored.loadAll blanks { numbers := parts.flatten.toArray } =
        .ok (loaded, ⟨parts.flatten.toArray, parts.flatten.length⟩) ∧
      List.Forall₂ Stored.Same loaded ls := by
  obtain ⟨loaded, hsame, hload⟩ := Stored.loadAll_reelAt hfits
  refine ⟨_, loaded, mapM_eq_map fun l hl => Stored.numbers_eq epsilon (hkinds l hl), ?_, hsame⟩
  simpa [reelAt, List.flatMap_def] using hload [] []

def smallLayer (kind : StoredKind) (x y : Float) : Stored :=
  { kind, main := ⟨⟨[2, 1, 1, 1], #[y, x], rfl⟩, .ofList [x, y]⟩
    norm := ⟨.ofList [x, y], .ofList [y, y], .ofList [x, x], .ofList [y, x]⟩ }

def smallLayers (x y : Float) : List Stored := [.convolution, .normed, .connected].map (smallLayer · x y)

theorem layers_restored_three : ∃ parts loaded, (smallLayers 1 2).mapM (Stored.numbers 0) = .ok parts ∧
    Stored.loadAll (smallLayers 0 0) { numbers := parts.flatten.toArray } =
      .ok (loaded, ⟨parts.flatten.toArray, parts.flatten.length⟩) ∧
    List.Forall₂ Stored.Same loaded (smallLayers 1 2) := by
  have hfits (kind : StoredKind) (x y z : Float) : (smallLayer kind x x).Fits (smallLayer kind y z) :=
    ⟨rfl, rfl, fun _ => rfl, fun _ => ⟨rfl, rfl, rfl, rfl, rfl, rfl, rfl⟩⟩
  refine layers_restored 0 (fun l hl => ?_) (.cons (hfits ..) (.cons (hfits ..) (.cons (hfits ..) .nil)))
  obtain ⟨kind, hkind, rfl⟩ := List.mem_map.mp hl
  rintro (rfl : kind = .folded)
  exact absurd hkind (by decide)

end NetBridge.Config
