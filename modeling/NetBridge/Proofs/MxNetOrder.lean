import NetBridge.Proofs.MxNetTurns

/-!
# What a node contributes to a conversion

The share of a node is found from the nodes above it (`Settled`, `recorded_above`), as long as the layout in force
answers its questions alike. So two orders of the same nodes record the same layers and weights (`recorded_alike`).
-/

namespace NetBridge.Source.MxNet

open Run Share Option List

/-! ## Shares one after the other -/

def applyAll (δ : String → Share) (ns : List String) (b : Base) : Base := ns.foldl (fun b n => (δ n).on n b) b

variable {g : Graph Node} {m n : String} {δ : String → Share} {u : Vertex Node}

section
variable (δ : String → Share) (ns : List String) (b : Base)

theorem applyAll_concat (n : String) : applyAll δ (ns ++ [n]) b = (δ n).on n (applyAll δ ns b) := by
  simp [applyAll]

theorem applyAll_congr {δ δ' : String → Share} {ns : List String} (h : ∀ n ∈ ns, δ' n = δ n) (b : Base) :
    applyAll δ' ns b = applyAll δ ns b := by
  induction ns generalizing b with
  | nil => rfl
  | cons n ns ih =>
    show applyAll δ' ns ((δ' n).on n b) = applyAll δ ns ((δ n).on n b)
    rw [h n (.head _), ih fun m hm => h m (.tail _ hm)]

theorem find?_on (s : Share) (n m : String) : (s.on n b).graph.vertices.find? m =
    (b.graph.vertices.find? m).map fun u =>
      if n = m then { u with outputName := s.output.getD u.outputName } else u := by
  cases h : s.output with
  | none => simp [on, h]
  | some q =>
    simp only [on, h, elim_some, Graph.modify, Table.find?_modify]
    split <;> simp

theorem find?_applyAll (m : String) : (applyAll δ ns b).graph.vertices.find? m =
    (b.graph.vertices.find? m).map fun u =>
      if m ∈ ns then { u with outputName := (δ m).output.getD u.outputName } else u := by
  induction ns generalizing b with
  | nil => simp [applyAll]
  | cons n ns ih =>
    show (applyAll δ ns ((δ n).on n b)).graph.vertices.find? m = _
    rw [ih, find?_on, Option.map_map]
    congr 1
    funext u
    by_cases hn : n = m
    · subst hn
      cases (δ n).output <;> simp
    · simp [hn, Ne.symm hn]

@[simp] theorem applyAll_same : (applyAll δ ns b).loaded = b.loaded ∧
    (applyAll δ ns b).own.shapes = b.own.shapes ∧ (applyAll δ ns b).own.arrays = b.own.arrays := by
  induction ns generalizing b with
  | nil => exact ⟨rfl, rfl, rfl⟩
  | cons n ns ih => exact ih ((δ n).on n b)

theorem layers_applyAll :
    (applyAll δ ns b).layers.toList = b.layers.toList ++ ns.flatMap fun n => (δ n).layers := by
  induction ns generalizing b with
  | nil => simp [applyAll]
  | cons n ns ih =>
    show (applyAll δ ns ((δ n).on n b)).layers.toList = _
    rw [ih]
    simp [on]

theorem layout_applyAll : (applyAll δ ns b).own.layout =
    (ns.filterMap fun n => (δ n).layout).getLastD b.own.layout := by
  induction ns generalizing b with
  | nil => rfl
  | cons n ns ih =>
    show (applyAll δ ns ((δ n).on n b)).own.layout = _
    rw [ih]
    cases h : (δ n).layout with
    | none => simp [on]
    | some l =>
      rw [filterMap_cons, h]
      rw [getLastD_cons]
      simp [on, h]

theorem byName_applyAll (hn : n ∈ ns) {i : Nat} {l : Layer} (hi : (δ n).named = some i)
    (hl : (δ n).layers[i]? = some l) (hone : ∀ m ∈ ns, stripped m = stripped n → m = n) :
    ∃ p, (applyAll δ ns b).own.byName.find? (stripped n) = some p ∧ (applyAll δ ns b).layers[p]? = some l := by
  induction ns using reverseRecOn with
  | nil => cases hn
  | append_singleton ns m ih =>
    rw [applyAll_concat]
    by_cases hm : m = n
    · subst hm
      refine ⟨(applyAll δ ns b).layers.size + i, by simp [on, hi], ?_⟩
      simpa [on, Array.getElem?_append] using hl
    · have hin : n ∈ ns := by simpa [Ne.symm hm] using hn
      obtain ⟨p, hp, hlayer⟩ := ih hin fun m hm => hone m (mem_append_left _ hm)
      have hne : stripped n ≠ stripped m := fun e => hm (hone m (by simp) e.symm)
      obtain ⟨hlt, rfl⟩ := Array.getElem?_eq_some_iff.mp hlayer
      refine ⟨p, ?_, by simp [on, Array.getElem?_append, hlt]⟩
      cases h : (δ m).named with
      | none => simpa [on, h] using hp
      | some j => simpa [on, h, hne.symm] using hp

theorem byName_applyAll_of_ne {x : String} (hx : ∀ m ∈ ns, stripped m ≠ x) :
    (applyAll δ ns b).own.byName.find? x = b.own.byName.find? x := by
  induction ns generalizing b with
  | nil => rfl
  | cons n ns ih =>
    show (applyAll δ ns ((δ n).on n b)).own.byName.find? x = _
    rw [ih _ fun m hm => hx m (.tail _ hm)]
    cases h : (δ n).named with
    | none => simp [on, h]
    | some i => simp [on, h, hx n (.head _)]

end

/-! ## Weights -/

def weightAt (b : Base) (layer name : String) : Option Value := (b.weights.findD layer ∅).find? name

def Share.weight (s : Share) (n : String) (key : String × String) (old : Option Value) : Option Value :=
  s.writes.foldl (fun o p => if weightKey n p.1 = key then some p.2 else o) old

theorem weightAt_on (s : Share) (n : String) (b : Base) (layer name : String) :
    weightAt (s.on n b) layer name = s.weight n (layer, name) (weightAt b layer name) := by
  have hput (w : Weights) (key : String × String) (v : Value) : ((putWeight w key v).findD layer ∅).find? name =
      if key = (layer, name) then some v else (w.findD layer ∅).find? name := by
    obtain ⟨l, x⟩ := key
    by_cases hl : l = layer
    · subst hl
      by_cases hx : x = name <;> simp [putWeight]
    · simp [putWeight, hl]
  have hall (writes : List (Option String × Value)) (w : Weights) :
      ((writes.foldl (fun w p => putWeight w (weightKey n p.1) p.2) w).findD layer ∅).find? name =
        writes.foldl (fun o p => if weightKey n p.1 = (layer, name) then some p.2 else o)
          ((w.findD layer ∅).find? name) := by
    induction writes generalizing w with
    | nil => rfl
    | cons p writes ih => rw [foldl_cons, ih, hput, foldl_cons]
  exact hall s.writes b.weights

theorem weightAt_applyAll (δ : String → Share) (ns : List String) (b : Base) (layer name : String) :
    weightAt (applyAll δ ns b) layer name =
      ns.foldl (fun o n => (δ n).weight n (layer, name) o) (weightAt b layer name) := by
  induction ns generalizing b with
  | nil => rfl
  | cons n ns ih =>
    show weightAt (applyAll δ ns ((δ n).on n b)) layer name = _
    rw [ih, weightAt_on, foldl_cons]

theorem weightKey_inj {j k : Option String} (hj : j ≠ some "value") (hk : k ≠ some "value")
    (h : weightKey n j = weightKey m k) : n = m := by
  cases j with
  | none =>
    cases k with
    | none => exact String.append_left_inj _ |>.mp (congrArg Prod.fst h)
    | some y => exact absurd (congrArg some (congrArg Prod.snd h).symm) hk
  | some x =>
    cases k with
    | none => exact absurd (congrArg some (congrArg Prod.snd h)) hj
    | some y => exact congrArg Prod.fst h

theorem Share.weight_of_ne {s : Share} {key : String × String}
    (h : ∀ p ∈ s.writes, weightKey n p.1 ≠ key) (old : Option Value) : s.weight n key old = old := by
  unfold weight
  generalize s.writes = writes at h
  induction writes with
  | nil => rfl
  | cons p writes ih =>
    rw [foldl_cons, if_neg (h p (.head _))]
    exact ih fun q hq => h q (.tail _ hq)

/-- Nodes write to different places, so their order does not matter. -/
theorem weightAt_perm {ns ns' : List String} (hperm : ns.Perm ns') {b b' : Base}
    (hb : b.weights = b'.weights) (layer name : String) :
    weightAt (applyAll δ ns b) layer name = weightAt (applyAll δ ns' b') layer name := by
  rw [weightAt_applyAll, weightAt_applyAll, weightAt, hb]
  refine hperm.foldl_eq' (fun n _ m _ old => ?_) _
  by_cases hnm : n = m
  · rw [hnm]
  · by_cases hn : ∀ p ∈ (δ n).writes, weightKey n p.1 ≠ (layer, name)
    · rw [weight_of_ne hn, weight_of_ne hn]
    · have hm : ∀ q ∈ (δ m).writes, weightKey m q.1 ≠ (layer, name) := by
        intro q hq e
        refine hn fun p hp e' => hnm ?_
        exact weightKey_inj ((δ n).ordinary p hp) ((δ m).ordinary q hq) (e'.trans e.symm)
      rw [weight_of_ne hm, weight_of_ne hm]

/-! ## What a turn can see -/

def plain (u : Vertex Node) : Vertex Node := { u with targets := [] }

def plainOf (g : Graph Node) (m : String) : Option (Vertex Node) := (g.vertices.find? m).map plain

theorem sourcesOf_of_plainOf (h : plainOf g m = some u) : g.sourcesOf m = u.sources := by
  obtain ⟨w, hw, rfl⟩ := map_eq_some_iff.mp h
  show g.sourcesOf m = w.sources
  exact Graph.sourcesOf_of_find? hw

theorem feeds_of_plainOf {m s : String} (h : plainOf g m = some u) : g.Feeds s m ↔ s ∈ u.sources := by
  rw [Graph.Feeds, sourcesOf_of_plainOf h]

/-- No two layers get the same name, and every vertex stands under its own. -/
structure Apart (g : Graph Node) : Prop where
  named : ∀ m u, plainOf g m = some u → u.name = m ∧ u.outputName = m
  own : ∀ m u, plainOf g m = some u → (layerNames u).Nodup
  once : ∀ m u m' u', plainOf g m = some u → plainOf g m' = some u' → ∀ x ∈ layerNames u, x ∈ layerNames u' → m = m'

theorem Apart.stripped_mem (hg : Apart g) (hu : plainOf g m = some u) : stripped m ∈ layerNames u := by
  simp [layerNames, (hg.named m u hu).1]

def outOf (δ : String → Share) (m : String) : String := (δ m).output.getD m

def Good (g : Graph Node) (δ : String → Share) (m : String) : Prop :=
  ∃ u, plainOf g m = some u ∧ Turned (outOf δ) u (δ m).frame

def Makes (δ : String → Share) (m : String) (l : Layer) : Prop :=
  ∃ i, (δ m).named = some i ∧ (δ m).layers[i]? = some l

abbrev Above (g : Graph Node) : String → String → Prop := Relation.TransGen g.Feeds

variable {ns : List String}

theorem Good.not_copy {l : Layer} (h : Good g δ m) (hu : plainOf g m = some u)
    (hl : Makes δ m l) : u.item.op ≠ some "_copy" := by
  obtain ⟨u', hu', hturned⟩ := h
  cases hu'.symm.trans hu
  obtain ⟨i, hnamed, -⟩ := hl
  rcases hturned with ⟨-, s, hs, hframe⟩ | ⟨hne, -⟩
  · have : (δ m).named = none := congrArg Frame.named hframe
    rw [hnamed] at this
    cases this
  · exact hne

theorem Good.makes (hg : Apart g) (h : Good g δ m) (hu : plainOf g m = some u)
    (hop : u.item.op ≠ some "_copy") : outOf δ m = stripped m ∧ ∃ l, Makes δ m l ∧
      ∀ y, l.inputs.head? = some y → (∃ s ∈ u.sources, y = outOf δ s) ∨ numberName? u = some y := by
  obtain ⟨u', hu', hturned⟩ := h
  obtain rfl : u' = u := some.inj (hu'.symm.trans hu)
  rcases hturned with ⟨hcopy, -⟩ | ⟨-, hout, -, -, i, ins, hnamed, hheader, hhead⟩
  · exact absurd hcopy hop
  · obtain ⟨hname, -⟩ := hg.named m u' hu
    rw [hname] at hout
    obtain ⟨l, hl, hins⟩ : ∃ l, (δ m).layers[i]? = some l ∧ header l = (stripped u'.name, ins) := by
      simpa [frame] using hheader
    refine ⟨congrArg (·.getD m) hout, l, ⟨i, hnamed, hl⟩, ?_⟩
    obtain rfl : l.inputs = ins := congrArg Prod.snd hins
    exact hhead

theorem Makes.unique {l l' : Layer} (h : Makes δ m l) (h' : Makes δ m l') : l' = l := by
  obtain ⟨i, hi, hl⟩ := h
  obtain ⟨j, hj, hl'⟩ := h'
  cases hj.symm.trans hi
  exact some.inj (hl'.symm.trans hl)

theorem Good.origin (hg : Apart g) (hgood : ∀ m ∈ ns, Good g δ m) (hclosed : ∀ m ∈ ns, g.sourcesOf m ⊆ ns)
    (hacc : Acc g.Feeds m) (hm : m ∈ ns) :
    ∃ m' l, Relation.ReflTransGen g.Feeds m' m ∧ Makes δ m' l ∧ stripped m' = outOf δ m := by
  induction hacc with
  | intro m _ ih =>
    obtain ⟨u, hu, hturned⟩ := hgood m hm
    by_cases hop : u.item.op = some "_copy"
    · rcases hturned with ⟨-, s, hs, hframe⟩ | ⟨hne, -⟩
      · have hfeeds : g.Feeds s m := (feeds_of_plainOf hu).mpr hs
        obtain ⟨m', l, hpath, hl, hname⟩ := ih s hfeeds (hclosed m hm hfeeds)
        have hout : (δ m).output = some (outOf δ s) := congrArg Frame.output hframe
        refine ⟨m', l, hpath.tail hfeeds, hl, ?_⟩
        rw [hname, outOf.eq_def δ m, hout, getD_some]
      · exact absurd hop hne
    · obtain ⟨hout, l, hl, -⟩ := (hgood m hm).makes hg hu hop
      exact ⟨m, l, .refl, hl, hout.symm⟩

theorem above_mem (hclosed : ∀ m ∈ ns, g.sourcesOf m ⊆ ns) (hsources : g.sourcesOf n ⊆ ns)
    (h : Above g m n) : m ∈ ns := by
  induction h using Relation.TransGen.head_induction_on with
  | single h => exact hsources h
  | head h _ ih => exact hclosed _ ih h

/-! ## The layout in force -/

def layoutAfter (g : Graph Node) (ns : List String) : Value :=
  (ns.filterMap fun m => (plainOf g m).bind layoutSet?).getLastD (.text "None")

def layoutBefore (g : Graph Node) (n : String) : Value := layoutAfter g (g.order.takeWhile (· ≠ n))

theorem Good.layout (h : Good g δ m) : (δ m).layout = (plainOf g m).bind layoutSet? := by
  obtain ⟨u, hu, ⟨hop, s, -, hframe⟩ | ⟨-, -, hlayout, -⟩⟩ := h
  · rw [hu, bind_some, layoutSet?, hop]
    exact congrArg Frame.layout hframe
  · rw [hu]
    exact hlayout

theorem takeWhile_ne {pre post : List String} (h : (pre ++ n :: post).Nodup) :
    (pre ++ n :: post).takeWhile (· ≠ n) = pre := by
  have hpre : ∀ m ∈ pre, decide (m ≠ n) = true := by
    intro m hm
    have := (nodup_append.mp h).2.2 m hm n (.head _)
    simpa using this
  rw [takeWhile_append_of_pos hpre, takeWhile_cons_of_neg (by simp), append_nil]

/-! ## Turns along an order -/

structure Opening (b : Base) : Prop where
  apart : Apart b.graph
  nodup : b.graph.order.Nodup
  preceded : b.graph.Preceded b.graph.order
  listed : ∀ m, m ∈ b.graph.order ↔ (plainOf b.graph m).isSome = true
  layout : b.own.layout = .text "None"
  byName : b.own.byName = ∅
  layers : b.layers = #[]
  weights : b.weights = ∅

def viewOf (b : Base) (δ : String → Share) (n : String) : View where
  shapes := b.own.shapes
  arrays := b.own.arrays
  loaded := b.loaded
  layout := layoutBefore b.graph n
  out := outOf δ
  layer x l := ∃ m, Above b.graph m n ∧ Makes δ m l ∧ stripped m = x

def Settled (b : Base) (δ : String → Share) (n : String) (s : Share) : Prop :=
  ∃ u, plainOf b.graph n = some u ∧ Turned (outOf δ) u s.frame ∧
    ∀ c, Site (viewOf b δ n) u c → (convertNode u).outcome c = (.ok (), s.on n c)

theorem Settled.good {b : Base} (h : Settled b δ n (δ n)) : Good b.graph δ n := by
  obtain ⟨u, hu, hturned, -⟩ := h
  exact ⟨u, hu, hturned⟩

variable {b : Base} {post : List String}

theorem Opening.closed (hb : Opening b) (hsplit : b.graph.order = ns ++ post) :
    ∀ m ∈ ns, b.graph.sourcesOf m ⊆ ns := by
  intro m hm
  have hprec : b.graph.Preceded ns := by
    have := hb.preceded
    rw [hsplit] at this
    exact this.left
  obtain ⟨pre, post, rfl⟩ := append_of_mem hm
  exact fun s hs => mem_append_left _ (hprec pre m post rfl s hs)

theorem Opening.above (hb : Opening b) (hsplit : b.graph.order = ns ++ n :: post) (h : Above b.graph m n) : m ∈ ns :=
  above_mem (hb.closed hsplit) (hb.preceded ns n post hsplit) h

theorem Opening.not_mem (hb : Opening b) (hsplit : b.graph.order = ns ++ n :: post) : n ∉ ns :=
  not_mem_done hb.nodup hsplit

theorem Opening.layoutBefore (hb : Opening b) (hsplit : b.graph.order = ns ++ n :: post)
    (hgood : ∀ m ∈ ns, Good b.graph δ m) : (applyAll δ ns b).own.layout = layoutBefore b.graph n := by
  have hnodup := hb.nodup
  rw [hsplit] at hnodup
  rw [MxNet.layoutBefore, hsplit, takeWhile_ne hnodup, layout_applyAll, layoutAfter, hb.layout,
    filterMap_congr fun m hm => (hgood m hm).layout]

theorem viewOf_origin (hb : Opening b) (hsplit : b.graph.order = ns ++ n :: post)
    (hgood : ∀ m ∈ ns, Good b.graph δ m) {s : String} (hs : Above b.graph s n) :
    ∃ l, (viewOf b δ n).layer (outOf δ s) l := by
  have hmem := hb.above hsplit hs
  have hacc := hb.preceded.acc s (by rw [hsplit]; exact mem_append_left _ hmem)
  obtain ⟨m, l, hpath, hl, hname⟩ := Good.origin hb.apart hgood (hb.closed hsplit) hacc hmem
  exact ⟨l, m, .trans_right hpath hs, hl, hname⟩

theorem viewOf_known (hb : Opening b) (hsplit : b.graph.order = ns ++ n :: post)
    (hgood : ∀ m ∈ ns, Good b.graph δ m) (hm : Above b.graph m n) {l : Layer} (hl : Makes δ m l) :
    (∃ p, (applyAll δ ns b).own.byName.find? (stripped m) = some p ∧ (applyAll δ ns b).layers[p]? = some l) ∧
      ∀ y, l.inputs.head? = some y → (∃ l', (viewOf b δ n).layer y l') ∨
        (∃ u, plainOf b.graph m = some u ∧ y ∈ layerNames u) ∧ (applyAll δ ns b).own.byName.find? y = none := by
  have hg := hb.apart
  have hmem := hb.above hsplit hm
  obtain ⟨u, hu, -⟩ := hgood m hmem
  have hop := (hgood m hmem).not_copy hu hl
  have hone (m' : String) (hm' : m' ∈ ns) {x : String} (hx : x ∈ layerNames u) (e : stripped m' = x) : m' = m := by
    obtain ⟨u', hu', -⟩ := hgood m' hm'
    exact hg.once m' u' m u hu' hu _ (hg.stripped_mem hu') (e ▸ hx)
  refine ⟨?_, fun y hy => ?_⟩
  · obtain ⟨i, hi, hlayer⟩ := hl
    exact byName_applyAll δ ns b hmem hi hlayer fun m' hm' e => hone m' hm' (hg.stripped_mem hu) e
  · obtain ⟨-, l', hl', hhead⟩ := (hgood m hmem).makes hg hu hop
    obtain rfl := hl'.unique hl
    rcases hhead y hy with ⟨s, hs, rfl⟩ | hnumber
    · exact .inl (viewOf_origin hb hsplit hgood (.head ((feeds_of_plainOf hu).mpr hs) hm))
    · have hy : y ∈ layerNames u := by simp [layerNames, hnumber]
      refine .inr ⟨⟨u, hu, hy⟩, ?_⟩
      rw [byName_applyAll_of_ne δ ns b fun m' hm' e => ?_, hb.byName, Table.find?_empty]
      -- a node would have the name of a number that it takes
      obtain rfl := hone m' hm' hy e
      have := hg.own m' u hu
      simp [layerNames, hnumber, (hg.named m' u hu).1, e] at this

theorem site_turn (hb : Opening b) (hsplit : b.graph.order = ns ++ n :: post) (hu : plainOf b.graph n = some u)
    (hsettled : ∀ m ∈ ns, Settled b δ m (δ m)) : Site (viewOf b δ n) u (applyAll δ ns b) := by
  have hgood : ∀ m ∈ ns, Good b.graph δ m := fun m hm => (hsettled m hm).good
  have hg := hb.apart
  have hn := hb.not_mem hsplit
  obtain ⟨hname, hout⟩ := hg.named n u hu
  obtain ⟨w, hw, rfl⟩ := map_eq_some_iff.mp hu
  have hbelow {m : String} (hm : m ∈ w.sources) : Above b.graph m n := .single ((feeds_of_plainOf hu).mpr hm)
  have hsource {m : String} (hm : m ∈ w.sources) : m ∈ ns := hb.above hsplit (hbelow hm)
  have hother {m : String} (hm : Above b.graph m n) {um : Vertex Node} (hum : plainOf b.graph m = some um) {x : String}
      (hx : x ∈ layerNames um) : x ≠ stripped n := by
    intro e
    obtain rfl := hg.once m um n (plain w) hum hu x hx (e ▸ hg.stripped_mem hu)
    exact hn (hb.above hsplit hm)
  refine ⟨by simp [viewOf], by simp [viewOf], by simp [viewOf], fun q _ => ?_, ⟨w, ?_, ?_, rfl⟩, fun m hm =>
    ⟨?_, ?_, ?_⟩,
    ?_⟩
  · rw [hb.layoutBefore hsplit hgood]
    rfl
  · rw [hname, find?_applyAll, hw]
    simp [hn]
  · rw [hname]
    exact hout
  · rw [hname]
    exact fun e => hn (e ▸ hsource hm)
  · obtain ⟨um, hum, -⟩ := hgood m (hsource hm)
    obtain ⟨wm, hwm, rfl⟩ := map_eq_some_iff.mp hum
    have hout : wm.outputName = m := (hg.named m _ hum).2
    refine ⟨_, by rw [find?_applyAll, hwm, map_some], ?_⟩
    simp [hsource hm, hout, viewOf, outOf]
  · exact viewOf_origin hb hsplit hgood (hbelow hm)
  · rintro x l ⟨m, hm, hl, rfl⟩
    obtain ⟨um, hum, -⟩ := hgood m (hb.above hsplit hm)
    obtain ⟨hfound, hhead⟩ := viewOf_known hb hsplit hgood hm hl
    rw [hname]
    refine ⟨hother hm hum (hg.stripped_mem hum), hfound, fun y hy => (hhead y hy).imp id ?_⟩
    rintro ⟨⟨u', hu', hy'⟩, hnone⟩
    exact ⟨hother hm hu' hy', hnone⟩

/-! ## Nodes that two conversions have in common -/

def SameAnswers (b c : Base) (m : String) : Prop :=
  ∀ u ∈ plainOf b.graph m, ∀ q ∈ layoutQuestions b.own.shapes b.loaded u,
    layoutIn (layoutBefore c.graph m) q = layoutIn (layoutBefore b.graph m) q

instance (b c : Base) (m : String) : Decidable (SameAnswers b c m) :=
  inferInstanceAs (Decidable (∀ u ∈ plainOf b.graph m, ∀ q ∈ layoutQuestions b.own.shapes b.loaded u,
    layoutIn (layoutBefore c.graph m) q = layoutIn (layoutBefore b.graph m) q))

structure Alike (b c : Base) (m : String) : Prop where
  vertex : plainOf c.graph m = plainOf b.graph m
  answers : SameAnswers b c m

structure SameData (b c : Base) : Prop where
  shapes : c.own.shapes = b.own.shapes
  arrays : c.own.arrays = b.own.arrays
  loaded : c.loaded = b.loaded

theorem SameData.symm {b c : Base} (h : SameData b c) : SameData c b := ⟨h.shapes.symm, h.arrays.symm, h.loaded.symm⟩

theorem Alike.symm {b c : Base} (h : Alike b c m) (hdata : SameData b c) : Alike c b m := by
  refine ⟨h.vertex.symm, fun u hu q hq => ?_⟩
  rw [h.vertex] at hu
  rw [hdata.shapes, hdata.loaded] at hq
  exact (h.answers u hu q hq).symm

section
variable {c : Base} {δ' : String → Share} {s : Share}

theorem Alike.feeds {m s : String} (h : Alike b c m) : c.graph.Feeds s m ↔ b.graph.Feeds s m := by
  have := congrArg (fun o : Option (Vertex Node) => o.elim [] (·.sources)) h.vertex
  simp only [plainOf, elim_map] at this
  exact iff_of_eq (congrArg (s ∈ ·) this)

theorem above_alike (h : ∀ m, Relation.ReflTransGen b.graph.Feeds m n → Alike b c m) (m : String) :
    Above c.graph m n ↔ Above b.graph m n := by
  constructor
  · intro hm
    induction hm using Relation.TransGen.head_induction_on with
    | single hm => exact .single ((h n .refl).feeds.mp hm)
    | head hm _ ih => exact .head ((h _ ih.to_reflTransGen).feeds.mp hm) ih
  · intro hm
    induction hm using Relation.TransGen.head_induction_on with
    | single hm => exact .single ((h n .refl).feeds.mpr hm)
    | head hm hrest ih => exact .head ((h _ hrest.to_reflTransGen).feeds.mpr hm) ih

theorem Turned.congr {out out' : String → String} {v : Vertex Node} {F : Frame} (h : Turned out v F)
    (hout : ∀ m ∈ v.sources, out' m = out m) : Turned out' v F := by
  rcases h with ⟨hop, m, hm, hF⟩ | ⟨hop, hF, hlayout, hnames, i, ins, hnamed, hheader, hhead⟩
  · exact .inl ⟨hop, m, hm, by rw [hout m hm, hF]⟩
  · refine .inr ⟨hop, hF, hlayout, hnames, i, ins, hnamed, hheader, fun y hy => (hhead y hy).imp ?_ id⟩
    rintro ⟨m, hm, rfl⟩
    exact ⟨m, hm, (hout m hm).symm⟩

theorem Settled.transfer (h : Settled b δ n s) (hdata : SameData b c)
    (halike : ∀ m, Relation.ReflTransGen b.graph.Feeds m n → Alike b c m)
    (hδ : ∀ m, Above b.graph m n → δ' m = δ m) : Settled c δ' n s := by
  obtain ⟨u, hu, hturned, hrun⟩ := h
  have hself := halike n .refl
  have hout (m : String) (hm : m ∈ u.sources) : outOf δ' m = outOf δ m := by
    rw [outOf, outOf, hδ m (.single ((feeds_of_plainOf hu).mpr hm))]
  have hlayer (x : String) (l : Layer) : (viewOf b δ n).layer x l ↔ (viewOf c δ' n).layer x l := by
    refine exists_congr fun m => ?_
    rw [above_alike halike]
    refine and_congr_right fun hm => ?_
    rw [Makes, Makes, hδ m hm]
  refine ⟨u, hself.vertex.trans hu, hturned.congr hout, fun d hd => hrun d ?_⟩
  refine ⟨hd.shapes.trans hdata.shapes, hd.arrays.trans hdata.arrays, hd.loaded.trans hdata.loaded, fun q hq => ?_,
    hd.self, fun m hm => ?_, fun x l hl => ?_⟩
  · have hasked : q ∈ layoutQuestions (viewOf c δ' n).shapes (viewOf c δ' n).loaded u := by
      show q ∈ layoutQuestions c.own.shapes c.loaded u
      rw [hdata.shapes, hdata.loaded]
      exact hq
    exact (hd.layout q hasked).trans (hself.answers u hu q hq)
  · obtain ⟨hne, ⟨w, hw, hname⟩, l, hl⟩ := hd.sources m hm
    have hsame : (viewOf c δ' n).out m = (viewOf b δ n).out m := hout m hm
    rw [hsame] at hname hl
    exact ⟨hne, ⟨w, hw, hname⟩, l, (hlayer _ l).mpr hl⟩
  · obtain ⟨hne, hfound, hhead⟩ := hd.known x l ((hlayer x l).mp hl)
    exact ⟨hne, hfound, fun y hy => (hhead y hy).imp (fun ⟨l', hl'⟩ => ⟨l', (hlayer y l').mpr hl'⟩) id⟩

theorem Settled.congr (h : Settled b δ n s) (hδ : ∀ m, Above b.graph m n → δ' m = δ m) : Settled b δ' n s :=
  h.transfer ⟨rfl, rfl, rfl⟩ (fun _ _ => ⟨rfl, fun _ _ _ _ => rfl⟩) hδ

end

/-! ## Whole runs -/

theorem rule_plain {op : String} {rule : Vertex Node → Convert Unit} (h : rule? op = some rule) (u : Vertex Node) :
    rule (plain u) = rule u := by
  unfold rule? at h
  split at h
  all_goals cases h
  all_goals rfl

theorem convertNode_plain (u : Vertex Node) : convertNode (plain u) = convertNode u := by
  unfold convertNode
  congr 1
  funext op
  cases h : rule? op with
  | none => rfl
  | some rule => exact rule_plain h u

def turn (n : String) : Convert Unit := do convertNode (← vertex n)

theorem turn_outcome {b : Base} {ns : List String} (hu : plainOf b.graph n = some u) (hn : n ∉ ns) :
    (turn n).outcome (applyAll δ ns b) = (convertNode u).outcome (applyAll δ ns b) := by
  obtain ⟨w, hw, rfl⟩ := map_eq_some_iff.mp hu
  have hfind : (applyAll δ ns b).graph.vertices.find? n = some w := by
    rw [find?_applyAll, hw]
    simp [hn]
  have hvertex : (vertex n : Convert (Vertex Node)).outcome (applyAll δ ns b) = (.ok w, applyAll δ ns b) :=
    bind_ok rfl (lift_ok (Graph.vertex_eq_ok.mpr hfind))
  rw [turn, outcome_bind, hvertex, convertNode_plain]

section
variable {δ₀ : String → Share} {common : String → Prop}

theorem turn_settles (hb : Opening b) (hcommon : ∀ m, common m → Settled b δ₀ m (δ₀ m))
    (hclosed : ∀ m m', common m → b.graph.Feeds m' m → common m') (hsplit : b.graph.order = ns ++ n :: post) :
    Triple (fun t => ∃ δ, t = applyAll δ ns b ∧ (∀ m ∈ ns, Settled b δ m (δ m)) ∧ ∀ m ∈ ns, common m → δ m = δ₀ m)
      (turn n) fun _ t => ∃ δ, t = applyAll δ (ns ++ [n]) b ∧ (∀ m ∈ ns ++ [n], Settled b δ m (δ m)) ∧
        ∀ m ∈ ns ++ [n], common m → δ m = δ₀ m := by
  rintro t ⟨δ, rfl, hsettled, hknown⟩ _ t' hrun
  have hn := hb.not_mem hsplit
  obtain ⟨u, hu⟩ := isSome_iff_exists.mp ((hb.listed n).mp (by rw [hsplit]; simp))
  have hsite := site_turn hb hsplit hu hsettled
  rw [turn_outcome hu hn] at hrun
  obtain ⟨s, hs, hsame⟩ : ∃ s, Settled b δ n s ∧ (common n → s = δ₀ n) := by
    by_cases hc : common n
    · have habove {m : String} (hm : Above b.graph m n) : common m := by
        induction hm using Relation.TransGen.head_induction_on with
        | single hm => exact hclosed _ _ hc hm
        | head hm _ ih => exact hclosed _ _ ih hm
      exact ⟨δ₀ n, (hcommon n hc).congr fun m hm => hknown m (hb.above hsplit hm) (habove hm), fun _ => rfl⟩
    · obtain ⟨s, hturned, hall⟩ := convertNode_local hsite hrun
      rw [(hb.apart.named n u hu).1] at hall
      exact ⟨s, ⟨u, hu, hturned, hall⟩, fun h => absurd h hc⟩
  obtain ⟨u', hu', -, hall⟩ := id hs
  cases hu.symm.trans hu'
  obtain rfl : s.on n (applyAll δ ns b) = t' := by
    rw [hall _ hsite] at hrun
    exact (Prod.mk.inj hrun).2
  -- the shares found so far, and the new one
  let next (m : String) : Share := if m = n then s else δ m
  have hold (m : String) (hm : m ∈ ns) : next m = δ m := if_neg fun e : m = n => hn (e ▸ hm)
  have hnew : next n = s := if_pos rfl
  have hmem : ∀ m ∈ ns ++ [n], m ∈ ns ∨ m = n := by simp
  refine ⟨next, ?_, fun m hm => ?_, fun m hm hc => ?_⟩
  · rw [applyAll_concat, applyAll_congr hold, hnew]
  · rcases hmem m hm with hm | rfl
    · rw [hold m hm]
      exact (hsettled m hm).congr fun m' hm' => hold m' (above_mem (hb.closed hsplit) (hb.closed hsplit m hm) hm')
    · rw [hnew]
      exact hs.congr fun m' hm' => hold m' (hb.above hsplit hm')
  · rcases hmem m hm with hm | rfl
    · rw [hold m hm]
      exact hknown m hm hc
    · rw [hnew]
      exact hsame hc

variable (common δ₀) in
theorem convert_settles (hb : Opening b) (hcommon : ∀ m, common m → Settled b δ₀ m (δ₀ m))
    (hclosed : ∀ m m', common m → b.graph.Feeds m' m → common m') {t : Base} (h : convert.outcome b = (.ok (), t)) :
    ∃ δ, t = applyAll δ b.graph.order b ∧ (∀ m ∈ b.graph.order, Settled b δ m (δ m)) ∧
      ∀ m ∈ b.graph.order, common m → δ m = δ₀ m := by
  have hloop := Triple.forM (f := turn) (l := b.graph.order) (I := fun ns t => ∃ δ, t = applyAll δ ns b ∧
    (∀ m ∈ ns, Settled b δ m (δ m)) ∧ ∀ m ∈ ns, common m → δ m = δ₀ m) fun ns n post hsplit =>
      turn_settles hb hcommon hclosed hsplit
  exact hloop b ⟨δ₀, rfl, by simp, by simp⟩ () t h

theorem convert_of_settled (hb : Opening b) (hsettled : ∀ m ∈ b.graph.order, Settled b δ m (δ m)) :
    convert.outcome b = (.ok (), applyAll δ b.graph.order b) := by
  suffices hall : ∀ ns post, b.graph.order = ns ++ post → (ns.forM turn).outcome b = (.ok (), applyAll δ ns b) from
    hall _ [] (by simp)
  intro ns
  induction ns using reverseRecOn with
  | nil => exact fun _ _ => rfl
  | append_singleton ns n ih =>
    intro post hsplit
    rw [append_assoc] at hsplit
    obtain ⟨u, hu, -, hrun⟩ := hsettled n (by rw [hsplit]; simp)
    have hsite := site_turn hb hsplit hu fun m hm => hsettled m (by rw [hsplit]; simp [hm])
    have hturn : (turn n).outcome (applyAll δ ns b) = (.ok (), applyAll δ (ns ++ [n]) b) := by
      rw [turn_outcome hu (hb.not_mem hsplit), hrun _ hsite, applyAll_concat]
    have happend : (ns ++ [n]).forM turn = (ns.forM turn >>= fun _ => [n].forM turn) := forM_append
    rw [happend]
    exact bind_ok (ih _ hsplit) (bind_ok hturn rfl)

end

/-! ## What is recorded -/

def layersOf (t : Base) (u : Vertex Node) : List Layer := t.layers.toList.filter fun l => l.name ∈ layerNames u

def weightOf (t : Base) (n : String) (k : Option String) : Option Value :=
  weightAt t (weightKey n k).1 (weightKey n k).2

def SameFor (t t' : Base) (u : Vertex Node) : Prop :=
  layersOf t' u = layersOf t u ∧ ∀ k ≠ some "value", weightOf t' u.name k = weightOf t u.name k

def SameRecord (t t' : Base) : Prop :=
  t'.layers.toList.Perm t.layers.toList ∧ ∀ layer name, weightAt t' layer name = weightAt t layer name

theorem SameRecord.symm {t t' : Base} (h : SameRecord t t') : SameRecord t' t :=
  ⟨h.1.symm, fun layer name => (h.2 layer name).symm⟩

section
variable {c : Base}

theorem Settled.names {s : Share} (h : Settled b δ n s) (hu : plainOf b.graph n = some u) :
    ∀ l ∈ s.layers, l.name ∈ layerNames u := by
  obtain ⟨u', hu', hturned, -⟩ := h
  cases hu'.symm.trans hu
  have hframe : s.frame.headers = s.layers.map header := rfl
  intro l hl
  rcases hturned with ⟨-, m, -, hF⟩ | ⟨-, -, -, hnames, -⟩
  · rw [hF, eq_comm, map_eq_nil_iff] at hframe
    rw [hframe] at hl
    cases hl
  · exact hnames (header l) (mem_map_of_mem hl)

theorem layersOf_applyAll (hb : Opening b) (hsettled : ∀ m ∈ b.graph.order, Settled b δ m (δ m))
    (hu : plainOf b.graph n = some u) : layersOf (applyAll δ b.graph.order b) u = (δ n).layers := by
  have hn : n ∈ b.graph.order := (hb.listed n).mpr (by rw [hu]; rfl)
  have hself : (δ n).layers.filter (fun l => l.name ∈ layerNames u) = (δ n).layers := by
    rw [filter_eq_self]
    exact fun l hl => decide_eq_true ((hsettled n hn).names hu l hl)
  have hother : ∀ m ∈ b.graph.order, m ≠ n → (δ m).layers.filter (fun l => l.name ∈ layerNames u) = [] := by
    intro m hm hne
    obtain ⟨um, hum⟩ := isSome_iff_exists.mp ((hb.listed m).mp hm)
    rw [filter_eq_nil_iff]
    intro l hl hmem
    exact hne (hb.apart.once m um n u hum hu l.name ((hsettled m hm).names hum l hl) (of_decide_eq_true hmem))
  obtain ⟨pre, post, hsplit⟩ := append_of_mem hn
  have hnodup := hb.nodup
  rw [layersOf, layers_applyAll, hb.layers, filter_append, filter_flatMap, hsplit, flatMap_append,
    flatMap_cons, hself]
  rw [hsplit] at hother hnodup
  have hpre : ∀ m ∈ pre, (δ m).layers.filter (fun l => l.name ∈ layerNames u) = [] := fun m hm =>
    hother m (mem_append_left _ hm) ((nodup_append.mp hnodup).2.2 m hm n (.head _))
  have hpost : ∀ m ∈ post, (δ m).layers.filter (fun l => l.name ∈ layerNames u) = [] := fun m hm =>
    hother m (mem_append_right _ (.tail _ hm)) fun e =>
      (nodup_cons.mp (nodup_append.mp hnodup).2.1).1 (e ▸ hm)
  rw [flatMap_eq_nil_iff.mpr hpre, flatMap_eq_nil_iff.mpr hpost]
  simp

theorem weightOf_applyAll (hb : Opening b) (hn : n ∈ b.graph.order) {k : Option String} (hk : k ≠ some "value") :
    weightOf (applyAll δ b.graph.order b) n k = (δ n).weight n (weightKey n k) none := by
  have hother (m : String) (hne : m ≠ n) (old : Option Value) : (δ m).weight m (weightKey n k) old = old :=
    weight_of_ne (fun p hp e => hne (weightKey_inj ((δ m).ordinary p hp) hk e)) old
  have hskip (ns : List String) (hns : n ∉ ns) (old : Option Value) :
      ns.foldl (fun o m => (δ m).weight m (weightKey n k) o) old = old := by
    induction ns with
    | nil => rfl
    | cons m ns ih =>
      rw [mem_cons, not_or] at hns
      rw [foldl_cons, hother m (Ne.symm hns.1), ih hns.2]
  obtain ⟨pre, post, hsplit⟩ := append_of_mem hn
  have hnodup := hb.nodup
  rw [hsplit] at hnodup
  have hpost : n ∉ post := (nodup_cons.mp (nodup_append.mp hnodup).2.1).1
  have hstart : weightAt b (weightKey n k).1 (weightKey n k).2 = none := by
    rw [weightAt, hb.weights]
    rfl
  rw [weightOf, weightAt_applyAll, hsplit, foldl_append, hskip pre (hb.not_mem hsplit), foldl_cons, hskip post hpost,
    hstart]

theorem recorded_above (hb : Opening b) (hc : Opening c) (hdata : SameData b c)
    (halike : ∀ m, Relation.ReflTransGen b.graph.Feeds m n → Alike b c m) (hu : plainOf b.graph n = some u)
    {t t' : Base}
    (ht : convert.outcome b = (.ok (), t)) (ht' : convert.outcome c = (.ok (), t')) : SameFor t t' u := by
  obtain ⟨δ, rfl, hδ, -⟩ := convert_settles (fun _ => {}) (fun _ => False) hb (fun _ h => h.elim)
    (fun _ _ h => h.elim) ht
  -- the nodes above and the node itself are common to both
  have hclosed (m m' : String) (hm : Relation.ReflTransGen b.graph.Feeds m n) (h : c.graph.Feeds m' m) :
      Relation.ReflTransGen b.graph.Feeds m' n := .head ((halike m hm).feeds.mp h) hm
  have hlisted (m : String) (hm : Relation.ReflTransGen b.graph.Feeds m n) : m ∈ b.graph.order := by
    have hn : n ∈ b.graph.order := (hb.listed n).mpr (by rw [hu]; rfl)
    obtain ⟨pre, post, hsplit⟩ := append_of_mem hn
    rcases Relation.reflTransGen_iff_eq_or_transGen.mp hm with rfl | hm
    · exact hn
    · rw [hsplit]
      exact mem_append_left _ (hb.above hsplit hm)
  obtain ⟨δ', rfl, hδ', hsame⟩ := convert_settles δ (Relation.ReflTransGen b.graph.Feeds · n) hc (fun m hm =>
    (hδ m (hlisted m hm)).transfer hdata (fun m' hm' => halike m' (hm'.trans hm)) fun _ _ => rfl) hclosed ht'
  have hu' : plainOf c.graph n = some u := (halike n .refl).vertex.trans hu
  have hn' : n ∈ c.graph.order := (hc.listed n).mpr (by rw [hu']; rfl)
  refine ⟨?_, fun k hk => ?_⟩
  · rw [layersOf_applyAll hb hδ hu, layersOf_applyAll hc hδ' hu', hsame n hn' .refl]
  · rw [(hb.apart.named n u hu).1, weightOf_applyAll hb (hlisted n .refl) hk, weightOf_applyAll hc hn' hk,
      hsame n hn' .refl]

theorem recorded_alike (hb : Opening b) (hc : Opening c) (hdata : SameData b c) (halike : ∀ m, Alike b c m) {t : Base}
    (ht : convert.outcome b = (.ok (), t)) : ∃ t', convert.outcome c = (.ok (), t') ∧ SameRecord t t' := by
  obtain ⟨δ, rfl, hδ, -⟩ := convert_settles (fun _ => {}) (fun _ => False) hb (fun _ h => h.elim)
    (fun _ _ h => h.elim) ht
  have hperm : c.graph.order.Perm b.graph.order := by
    rw [perm_ext_iff_of_nodup hc.nodup hb.nodup]
    intro m
    rw [hc.listed, hb.listed, (halike m).vertex]
  have hsettled : ∀ m ∈ c.graph.order, Settled c δ m (δ m) := fun m hm =>
    (hδ m (hperm.mem_iff.mp hm)).transfer hdata (fun m' _ => halike m') fun _ _ => rfl
  refine ⟨_, convert_of_settled hc hsettled, ?_, fun layer name => ?_⟩
  · rw [layers_applyAll, layers_applyAll, hb.layers, hc.layers]
    exact (hperm.flatMap_right _).append_left _
  · exact weightAt_perm hperm (hc.weights.trans hb.weights.symm) layer name

end

end NetBridge.Source.MxNet
