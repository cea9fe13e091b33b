import NetBridge.Proofs.RunSteps
import NetBridge.Proofs.TableView
import NetBridge.Prototxt.Build

/-!
# Blobs behind splits

A net loses its splits when it is made ready for use, and what read a top of one reads the blob that the splits start
from. The bottoms keep their order if the tops stand last, each once, in the order of the splits.
-/

namespace NetBridge.Prototxt

open LayerSpec Table List

/-! ## Splits -/

def LayerSpec.isSplit (l : LayerSpec) : Bool := l.type.kind?.toOption == some (some "Split")

def LayerSpec.copies (l : LayerSpec) : List (String × String) :=
  if l.isSplit ∧ "label" ∉ l.bottoms then l.tops.map (·, l.bottoms.headD "") else []

variable {l : LayerSpec} {ls kept : List LayerSpec}

theorem copies_of_not_isSplit (h : l.isSplit = false) : l.copies = [] := by simp [copies, h]

/-- The tops of splits, each with the blob that it is a copy of. -/
def copiesIn (ls : List LayerSpec) : Table String := .ofList (ls.flatMap (·.copies))

def IsTop (ls : List LayerSpec) (b : String) : Prop := ∃ l ∈ ls, l.isSplit ∧ b ∈ l.tops

theorem isTop_of_mem_keys {b : String} (h : b ∈ (copiesIn ls).keys) : IsTop ls b := by
  rw [copiesIn, mem_keys_ofList, map_flatMap, mem_flatMap] at h
  obtain ⟨l, hl, hb⟩ := h
  unfold copies at hb
  split at hb
  · rename_i hsplit
    exact ⟨l, hl, hsplit.1, by simpa using hb⟩
  · cases hb

structure Collected (s : Splits) (ls : List LayerSpec) (s' : Splits) (kept : List LayerSpec) : Prop where
  copies : s'.copies = s.copies.insertAll (ls.flatMap (·.copies))
  sublist : kept.Sublist ls
  kept : ∀ l ∈ kept, l.isSplit = false

section
variable {s t s' : Splits} {l : LayerSpec} {ls kept : List LayerSpec}

theorem Collected.cons (h : Collected t ls s' kept) (hcopies : t.copies = s.copies.insertAll l.copies) :
    Collected s (l :: ls) s' kept where
  copies := by rw [h.copies, hcopies, insertAll, insertAll, ← foldl_append]; rfl
  sublist := h.sublist.cons l
  kept := h.kept

theorem Collected.stay (h : Collected s ls s' kept) (hl : l.isSplit = false) :
    Collected s (l :: ls) s' (l :: kept) := by
  have hnone : s.copies = s.copies.insertAll l.copies := by rw [copies_of_not_isSplit hl]; rfl
  exact ⟨(h.cons hnone).copies, h.sublist.cons_cons l, by simpa [hl] using h.kept⟩

theorem dropLabels_collected (h : dropLabels s ls = .ok (s', kept)) : Collected s ls s' kept := by
  induction ls generalizing s kept with
  | nil =>
    cases h
    exact ⟨rfl, .slnil, by simp⟩
  | cons l ls ih =>
    obtain ⟨kind, hkind, h⟩ := bind_cases h
    have hsplit : l.isSplit = (kind == some "Split") := by
      rw [isSplit, hkind]
      rfl
    split at h
    · rename_i hlabel
      have hnone : s.copies = s.copies.insertAll l.copies := by
        rw [copies, if_neg fun hcopy => hcopy.2 (by simpa using hlabel)]
        rfl
      split at h
      · rename_i hloss
        obtain ⟨⟨_, _⟩, hrest, h⟩ := bind_cases h
        cases h
        refine (ih hrest).stay (hsplit.trans (beq_eq_false_iff_ne.mpr ?_))
        rintro rfl
        cases hloss
      · split at h
        · exact (ih h).cons hnone
        · exact (ih h).cons hnone
    · rename_i hlabel
      split at h
      · rename_i hkind
        split at h
        · rename_i htops
          exact (ih h).cons (by simp [copies, htops, insertAll])
        · cases h
        · rename_i hbottoms _
          refine (ih h).cons ?_
          rw [copies, if_pos ⟨by simp [hsplit, hkind], by simpa using hlabel⟩, hbottoms]
          rfl
      · rename_i hkind
        obtain ⟨⟨_, _⟩, hrest, h⟩ := bind_cases h
        cases h
        exact (ih hrest).stay (by simp [hsplit, hkind])

end

/-! ## Seeing through -/

/-- From a blob back through the splits to the one that they start from. -/
inductive StartsAt (copies : Table String) : String → String → Prop
  | start {b : String} (h : copies.find? b = none) : StartsAt copies b b
  | copy {b c d : String} (h : copies.find? b = some c) (hc : StartsAt copies c d) : StartsAt copies b d

theorem foldl_readCopied {es : List (String × String)} {bs done : List String} (hkeys : (es.map (·.1)).Nodup)
    (hlate : es.Pairwise fun e f => e.1 ∈ bs → e.2 ≠ f.1) (hdone : ∀ e ∈ es, e.1 ∉ done) :
    es.foldl readCopied (bs ++ done) = bs.diff (es.map (·.1)) ++ done ++ (es.filter (·.1 ∈ bs)).map (·.2) := by
  induction es generalizing bs done with
  | nil => simp
  | cons e es ih =>
    obtain ⟨hnew, hkeys⟩ := nodup_cons.mp hkeys
    obtain ⟨hthis, hlate⟩ := pairwise_cons.mp hlate
    have hnot : e.1 ∉ done := hdone e (.head _)
    have hrest : ∀ f ∈ es, f.1 ∉ done := fun f hf => hdone f (.tail _ hf)
    rw [foldl_cons, readCopied, map_cons, diff_cons]
    by_cases he : e.1 ∈ bs
    · -- the other tops stay where they are
      have hmem {f : String × String} (hf : f ∈ es) : f.1 ∈ bs.erase e.1 ↔ f.1 ∈ bs :=
        mem_erase_of_ne fun h => hnew (mem_map.mpr ⟨f, hf, h⟩)
      have hfilter : es.filter (·.1 ∈ bs.erase e.1) = es.filter (·.1 ∈ bs) :=
        filter_congr fun f hf => by simp [hmem hf]
      rw [if_pos (by simp [he]), erase_append_left _ he, append_assoc, ih hkeys, hfilter]
      · simp [he]
      · exact hlate.imp fun h hf => h (mem_of_mem_erase hf)
      · intro f hf h
        rcases mem_append.mp h with h | h
        · exact hrest f hf h
        · exact hthis f hf he (mem_singleton.mp h).symm
    · rw [if_neg (by simp [he, hnot]), ih hkeys hlate hrest, erase_of_not_mem he,
        filter_cons_of_neg (by simpa using he)]

section
variable {copies : Table String} {ls : List LayerSpec} {b d : String} {bs : List String}

/-- One step back. -/
def source (copies : Table String) (b : String) : String := (copies.find? b).getD b

theorem source_of_find? (h : copies.find? b = some d) : source copies b = d := by rw [source, h]; rfl

theorem source_of_not_mem (h : b ∉ copies.keys) : source copies b = b := by
  rw [source, find?_eq_none_iff.mpr h]
  rfl

theorem StartsAt.eq_of_not_mem (h : StartsAt copies b d) (hb : b ∉ copies.keys) : d = b := by
  cases h with
  | start _ => rfl
  | copy h _ => exact absurd (mem_keys_of_find? h) hb

theorem startsAt_iff_of_source (hb : source copies b ∉ copies.keys) : StartsAt copies b d ↔ d = source copies b := by
  have hend := find?_eq_none_iff.mpr hb
  constructor
  · intro h
    cases h with
    | start h => exact (source_of_not_mem (find?_eq_none_iff.mp h)).symm
    | copy h hc =>
      rw [source_of_find? h] at hb ⊢
      exact hc.eq_of_not_mem hb
  · intro h
    subst h
    cases h : copies.find? b with
    | none =>
      rw [source_of_not_mem (find?_eq_none_iff.mp h)]
      exact .start h
    | some c =>
      rw [source_of_find? h] at hend ⊢
      exact .copy h (.start hend)

/-- A split is listed after the one whose top it reads. -/
def InOrder (copies : Table String) : Prop := copies.entries.Pairwise fun e f => e.2 ≠ f.1

structure SeenThrough (ls : List LayerSpec) (bs bs' : List String) : Prop where
  starts : List.Forall₂ (StartsAt (copiesIn ls)) bs bs'
  clear : ∀ b ∈ bs', ¬ IsTop ls b

/-- No split reads a top of another, and what is left after striking the tops once, followed by the sources of the tops
in the order of the splits, is what the blobs stand for. -/
structure Settled (ls : List LayerSpec) (bs : List String) : Prop where
  single : ∀ b ∈ bs, ¬ IsTop ls (source (copiesIn ls) b)
  order : bs.map (source (copiesIn ls)) =
    bs.diff (copiesIn ls).keys ++ ((copiesIn ls).keys.filter (· ∈ bs)).map (source (copiesIn ls))

theorem seenThrough_iff {bs' : List String} (h : ∀ b ∈ bs, ¬IsTop ls (source (copiesIn ls) b)) :
    SeenThrough ls bs bs' ↔ bs' = bs.map (source (copiesIn ls)) := by
  have hend : ∀ b ∈ bs, source (copiesIn ls) b ∉ (copiesIn ls).keys := fun b hb hkey => h b hb (isTop_of_mem_keys hkey)
  constructor
  · intro hseen
    have hstarts := hseen.starts
    clear hseen h
    induction hstarts with
    | nil => rfl
    | cons hd _ ih =>
      rw [map_cons, (startsAt_iff_of_source (hend _ (.head _))).mp hd,
        ih fun b hb => hend b (.tail _ hb)]
  · intro hbs
    subst hbs
    refine ⟨?_, by simpa using h⟩
    rw [forall₂_map_right_iff, forall₂_same]
    exact fun b hb => (startsAt_iff_of_source (hend b hb)).mpr rfl

theorem nodup_copiesIn (ls : List LayerSpec) : (copiesIn ls).keys.Nodup := nodup_keys_ofList _

theorem foldl_readCopied_eq (hlate : (copiesIn ls).entries.Pairwise fun e f => e.1 ∈ bs → e.2 ≠ f.1) :
    (copiesIn ls).entries.foldl readCopied bs =
      bs.diff (copiesIn ls).keys ++ ((copiesIn ls).keys.filter (· ∈ bs)).map (source (copiesIn ls)) := by
  have hsources : ((copiesIn ls).keys.filter (· ∈ bs)).map (source (copiesIn ls)) =
      ((copiesIn ls).entries.filter (·.1 ∈ bs)).map (·.2) := by
    rw [Table.keys, filter_map, map_map]
    exact map_congr_left fun e he =>
      source_of_find? ((find?_eq_some_iff (nodup_copiesIn ls)).mpr (mem_of_mem_filter he))
  rw [hsources]
  have hnone : ∀ e ∈ (copiesIn ls).entries, e.1 ∉ [] := by simp
  simpa [Table.keys] using foldl_readCopied (nodup_copiesIn ls) hlate hnone

theorem Settled.seenThrough (h : Settled ls bs) :
    SeenThrough ls bs ((copiesIn ls).entries.foldl readCopied bs) := by
  rw [seenThrough_iff h.single, h.order]
  refine foldl_readCopied_eq (pairwise_of_forall_mem_list fun e he f hf hb heq => h.single e.1 hb ?_)
  rw [source_of_find? ((find?_eq_some_iff (nodup_copiesIn ls)).mpr he), heq]
  exact isTop_of_mem_keys (mem_map_of_mem hf)

theorem SeenThrough.settled (h : SeenThrough ls bs ((copiesIn ls).entries.foldl readCopied bs))
    (horder : InOrder (copiesIn ls)) : Settled ls bs := by
  have hlate : (copiesIn ls).entries.Pairwise fun e f => e.1 ∈ bs → e.2 ≠ f.1 := by
    apply List.Pairwise.imp _ horder
    intro _ _ h _
    exact h
  have heq := foldl_readCopied_eq hlate
  have hsingle : ∀ b ∈ bs, ¬ IsTop ls (source (copiesIn ls) b) := by
    intro b hb
    refine h.clear _ ?_
    rw [heq, mem_append]
    by_cases hkey : b ∈ (copiesIn ls).keys
    · exact .inr (mem_map_of_mem (mem_filter.mpr ⟨hkey, by simpa using hb⟩))
    · rw [source_of_not_mem hkey]
      exact .inl (mem_diff_of_mem hb hkey)
  exact ⟨hsingle, ((seenThrough_iff hsingle).mp h).symm.trans heq⟩

end

/-! ## Deployed nets -/

theorem LayerType.eq_of_beq {t t' : LayerType} (h : (t == t') = true) : t = t' := by
  cases t with
  | named s =>
    cases t' with
    | named s' => exact congrArg _ (beq_iff_eq.mp h)
    | numbered _ => cases h
  | numbered n =>
    cases t' with
    | named _ => cases h
    | numbered n' => exact congrArg _ (beq_iff_eq.mp h)

theorem LayerSpec.type_eq {l' : LayerSpec} (h : (l == l') = true) : l.type = l'.type := by
  have hboth : ∃ rest : Bool, (l.name == l'.name && (l.type == l'.type && rest)) = true := by
    exact ⟨_, h⟩
  exact LayerType.eq_of_beq (Bool.and_eq_true_iff.mp (Bool.and_eq_true_iff.mp h).2).1

variable {g : LayerSpec × Option String → Option LayerSpec}

/-- Layers that are no splits may be dropped before the splits are collected. -/
theorem Collected.of_filterMap {zs : List (LayerSpec × Option String)}
    {s s' : Splits} (h : Collected s (zs.filterMap g) s' kept)
    (hg : ∀ z ∈ zs, g z = some z.1 ∨ g z = none ∧ z.1.isSplit = false) : Collected s (zs.map (·.1)) s' kept := by
  have hall : (zs.filterMap g).Sublist (zs.map (·.1)) ∧
      (zs.filterMap g).flatMap (·.copies) = (zs.map (·.1)).flatMap (·.copies) := by
    clear h
    induction zs with
    | nil => simp
    | cons z zs ih =>
      obtain ⟨hsub, hcopies⟩ := ih fun z hz => hg z (.tail _ hz)
      rcases hg z (.head _) with hz | ⟨hz, hsplit⟩
      · rw [filterMap_cons_some hz]
        exact ⟨hsub.cons_cons _, by simp [hcopies]⟩
      · rw [filterMap_cons_none hz]
        exact ⟨hsub.cons _, by simp [hcopies, copies_of_not_isSplit hsplit]⟩
  exact ⟨hall.2 ▸ h.copies, h.sublist.trans hall.1, h.kept⟩

theorem endInPrediction_sublist {old : Bool} (h : endInPrediction old ls = .ok kept) :
    ∃ kind bottom, kept.Sublist (ls ++ [prediction old kind bottom]) := by
  obtain ⟨last, _, h⟩ := bind_cases h
  obtain ⟨kind, _, h⟩ := bind_cases h
  split at h
  · obtain ⟨bottom, _, ⟨⟩⟩ := bind_cases h
    exact ⟨kind, bottom, erase_sublist⟩
  · cases h
    exact ⟨kind, "", erase_sublist.trans (sublist_append_left ..)⟩

def NetSpec.listed (n : NetSpec) (old : Bool) : List LayerSpec := if old then n.oldLayers else n.layers

/-- A layer that is dropped for its kind is no split. -/
theorem not_isSplit_of_dropped {kinds : List (Option String)}
    {kind : Option String} (hg : ∀ z e, g z = some e → e = z.1 ∧ isFinalLoss z.2 = true)
    (hkinds : ∀ z ∈ ls.zip kinds, z.1.type.kind? = .ok z.2) (hkind : l.type.kind? = .ok kind)
    (h : (((ls.zip kinds).filterMap g).dropLast.contains l || isFeed kind) = true) : l.isSplit = false := by
  have hsplit : kind ≠ some "Split" → l.isSplit = false := by
    intro hne
    rw [isSplit, hkind]
    exact beq_eq_false_iff_ne.mpr fun h => hne (Option.some.inj h)
  refine hsplit fun hk => ?_
  subst hk
  rcases Bool.or_eq_true_iff.mp h with h | h
  · obtain ⟨e, he, hle⟩ := contains_iff_exists_mem_beq.mp h
    obtain ⟨z, hz, hge⟩ := mem_filterMap.mp ((dropLast_sublist _).subset he)
    obtain ⟨rfl, hloss⟩ := hg z e hge
    have hkind := hkinds z hz ▸ type_eq hle ▸ hkind
    cases z with
    | mk l' k =>
      cases hkind
      cases hloss
  · cases h

theorem deployed_listed {n n' : NetSpec} {shape : Option (List Value)} (h : n.deployed shape = .ok n') :
    ∃ (ls : List LayerSpec) (kind : Option String) (bottom : String), ls.Sublist (n.listed n.layers.isEmpty) ∧
      (∀ l ∈ ls, l.isSplit = false) ∧ (n'.listed n.layers.isEmpty).Sublist
        (ls.map (fun l =>
          { l with bottoms := (copiesIn (n.listed n.layers.isEmpty)).entries.foldl readCopied l.bottoms }) ++
        [prediction n.layers.isEmpty kind bottom]) := by
  obtain ⟨kinds, hkinds, h⟩ := bind_cases h
  obtain ⟨⟨splits, kept⟩, hdrop, h⟩ := bind_cases h
  obtain ⟨dims, _, h⟩ := bind_cases h
  obtain ⟨ended, hended, h⟩ := bind_cases h
  obtain ⟨kind, bottom, hended⟩ := endInPrediction_sublist hended
  rw [← NetSpec.listed] at hkinds hdrop
  obtain ⟨hlength, hkind⟩ := forall₂_iff_zip.mp (mapM_eq_ok_iff.mp hkinds)
  have hlisted : n'.listed n.layers.isEmpty = ended := by
    cases h
    unfold NetSpec.listed
    split <;> rfl
  have hall := (dropLabels_collected hdrop).of_filterMap ?_
  · rw [map_fst_zip (Nat.le_of_eq hlength)] at hall
    have hcopies : splits.copies = copiesIn (n.listed n.layers.isEmpty) := hall.copies
    rw [seeThrough, hcopies] at hended
    rw [hlisted]
    exact ⟨_, kind, bottom, filter_sublist.trans hall.sublist,
      fun l hl => hall.kept l (mem_of_mem_filter hl), hended⟩
  · rintro ⟨l, k⟩ hz
    dsimp only
    split
    · rename_i hdropped
      refine .inr ⟨rfl, not_isSplit_of_dropped ?_ (fun z hz => hkind hz) (hkind hz) hdropped⟩
      rintro ⟨l', k'⟩ e he
      split at he
      · cases he
        exact ⟨rfl, ‹_›⟩
      · cases he
    · exact .inl rfl

/-- For deployment, the layers that are kept read the sources of split blobs, if every split comes before its
readers. -/
theorem deployed_sees_through {n n' : NetSpec} {shape : Option (List Value)} {ls : List LayerSpec}
    (hls : n.listed n.layers.isEmpty = ls) (h : n.deployed shape = .ok n') :
    ∃ kept seen tail : List LayerSpec, n'.listed n.layers.isEmpty = seen ++ tail ∧ kept.Sublist ls ∧
      (∃ kind bottom, tail.Sublist [prediction n.layers.isEmpty kind bottom]) ∧
      List.Forall₂ (fun l l' => l.isSplit = false ∧ l' = { l with bottoms := l'.bottoms } ∧
        (Settled ls l.bottoms → SeenThrough ls l.bottoms l'.bottoms) ∧
        (InOrder (copiesIn ls) → SeenThrough ls l.bottoms l'.bottoms → Settled ls l.bottoms)) kept seen := by
  subst hls
  obtain ⟨ls, kind, bottom, hls, hsplits, hlisted⟩ := deployed_listed h
  obtain ⟨seen, tail, heq, hseen, htail⟩ := sublist_append_iff.mp hlisted
  obtain ⟨kept, hkept, rfl⟩ := sublist_map_iff.mp hseen
  refine ⟨kept, _, tail, heq, hkept.trans hls, ⟨kind, bottom, htail⟩, ?_⟩
  rw [forall₂_map_right_iff, forall₂_same]
  exact fun l hl => ⟨hsplits l (hkept.subset hl), rfl, Settled.seenThrough, fun horder hseen => hseen.settled horder⟩

/-- The tops of the split feed `r` and `j`, which also reads `r`. -/
def branchedNet : NetSpec := { layers := [
  { name := "c", type := .named "Convolution", bottoms := ["data"], tops := ["c"] },
  { name := "s", type := .named "Split", bottoms := ["c"], tops := ["s0", "s1"] },
  { name := "r", type := .named "ReLU", bottoms := ["s0"], tops := ["r"] },
  { name := "j", type := .named "Concat", bottoms := ["s1", "r"], tops := ["j"] },
  { name := "loss", type := .named "SoftmaxWithLoss", bottoms := ["j", "label"], tops := ["loss"] }] }

theorem deployed_sees_through_branched : ∃ n' kept seen tail, branchedNet.deployed none = .ok n' ∧
    n'.layers = seen ++ tail ∧ kept.Sublist branchedNet.layers ∧ Settled branchedNet.layers ["s0"] ∧
      List.Forall₂ (fun l l' => Settled branchedNet.layers l.bottoms →
        SeenThrough branchedNet.layers l.bottoms l'.bottoms) kept seen := by
  obtain ⟨n', h⟩ : ∃ n', branchedNet.deployed none = .ok n' := ⟨_, rfl⟩
  obtain ⟨kept, seen, tail, hlisted, hkept, -, hseen⟩ := deployed_sees_through rfl h
  refine ⟨n', kept, seen, tail, h, hlisted, hkept, ⟨?_, by decide⟩, hseen.imp fun l l' h => h.2.2.1⟩
  unfold IsTop
  decide

theorem branches_swapped : ∃ n', branchedNet.deployed none = .ok n' ∧
    (n'.layers.getD 2 {}).name = "j" ∧ (n'.layers.getD 2 {}).bottoms = ["r", "c"] ∧
      ¬ SeenThrough branchedNet.layers ["s1", "r"] ["r", "c"] := by
  have hsingle : ∀ b ∈ ["s1", "r"], ¬IsTop branchedNet.layers (source (copiesIn branchedNet.layers) b) := by
    unfold IsTop
    decide
  exact ⟨_, rfl, rfl, rfl, by rw [seenThrough_iff hsingle]; decide⟩

end NetBridge.Prototxt
