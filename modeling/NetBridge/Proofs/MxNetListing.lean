import NetBridge.Proofs.MxNetOrder
import NetBridge.Proofs.MxNetLayers

/-!
# Symbols as they are listed

The graph at the start of a conversion holds a vertex for every node that does not stand for a weight (`StartOf`). It
is there for every list of complete nodes that read earlier ones under different names (`Listing.start`).
-/

namespace NetBridge.Source.MxNet

open List Option

/-! ## Nodes as they are listed -/

def nodeOf (v : Value) : Node where
  op := match v.field? "op" with
    | some (.text s) => some s
    | _ => none
  settings := settingsOf v
  olderSettings := (v.field? "attr").isSome || (v.field? "param").isSome

/-- The vertex of a node, without its edges; nodes that stand for weights have none. -/
def vertexOf? (v : Value) : Option (Vertex Node) := do
  let name ← nodeName? v
  if namesWeight name && (nodeOf v).op = some "null" then none else some { name := name, item := nodeOf v }

def isComplete (v : Value) : Bool := (nodeName? v).any fun name => !(namesWeight name && (nodeOf v).op.isNone)

def position? : Value → Option Nat
  | .list (.int n :: _) => if 0 ≤ n then some n.toNat else none
  | _ => none

def inputsOf (v : Value) : List Nat := ((v.field? "inputs").elim [] Value.elems).filterMap position?

def readsEarlier (i : Nat) (v : Value) : Bool :=
  (v.field? "inputs").any fun ins => ins.elems.all fun e => (position? e).any (· < i)

def ReadsEarlier (nodes : List Value) : Prop := ∀ p ∈ nodes.zipIdx, readsEarlier p.2 p.1 = true

instance (nodes : List Value) : Decidable (ReadsEarlier nodes) :=
  inferInstanceAs (Decidable (∀ p ∈ nodes.zipIdx, readsEarlier p.2 p.1 = true))

variable {g : Graph Node} {p q : Graph Node × List String} {places : List (Nat × String)} {rest : List Value} {i : Nat}
  {v : Value} {w : Vertex Node}

variable {nodes : List Value} {name : String}

theorem ReadsEarlier.get (h : ReadsEarlier nodes) (hv : nodes[i]? = some v) : readsEarlier i v = true :=
  h (v, i) (mem_zipIdx_iff_getElem?.mpr hv)

theorem readsEarlier_spec (h : readsEarlier i v = true) :
    (∃ ins, v.field? "inputs" = some ins ∧ ∀ e ∈ ins.elems, (position? e).isSome = true) ∧ ∀ j ∈ inputsOf v, j < i := by
  rw [readsEarlier] at h
  rw [inputsOf]
  cases hins : v.field? "inputs" with
  | none => simp [hins] at h
  | some ins =>
    rw [hins, Option.any_some, List.all_eq_true] at h
    refine ⟨⟨ins, rfl, fun e he => ?_⟩, fun j hj => ?_⟩
    · have := h e he
      cases hpos : position? e with
      | none => simp [hpos] at this
      | some j => rfl
    · obtain ⟨e, he, hpos⟩ := mem_filterMap.mp hj
      simpa [hpos] using h e he

def sourcesIn (nodes : List Value) (v : Value) : List String :=
  (inputsOf v).filterMap fun j => (nodes[j]?.bind vertexOf?).map (·.name)

def Lists (nodes listed : List Value) (m : String) (u : Vertex Node) : Prop :=
  ∃ v ∈ listed, ∃ w, vertexOf? v = some w ∧ w.name = m ∧
    u = { w with sources := (sourcesIn nodes v).eraseDups }

/-! ## The graph of a list of nodes -/

theorem plainOf_eq (g : Graph Node) (m : String) :
    plainOf g m = (g.bareOf m).map fun w => { w with sources := g.sourcesOf m } := by
  simp only [plainOf, Graph.bareOf, Graph.sourcesOf]
  cases g.vertices.find? m <;> rfl

theorem isSome_plainOf {m : String} : (plainOf g m).isSome = true ↔ m ∈ g.vertices.keys := by
  rw [plainOf, isSome_map, isSome_iff_ne_none, ne_eq, Table.find?_eq_none_iff, not_not]

theorem plainOf_grow {n : String} {x : Node} {names : List String} (hn : n ∉ g.vertices.keys)
    (hnames : ∀ s ∈ names, s ∈ g.vertices.keys) (m : String) : plainOf ((g.add n x).connectAll (names.map (·, n))).1 m =
      if n = m then some { name := n, item := x, sources := names.eraseDups } else plainOf g m := by
  have hjoins : ∀ s ∈ names, (g.add n x).Joins s n := fun s hs =>
    ⟨fun e => hn (e ▸ hnames s hs), Graph.mem_keys_add.mpr (.inr (hnames s hs)), Graph.mem_keys_add.mpr (.inl rfl)⟩
  rw [plainOf_eq, plainOf_eq, Graph.bareOf_connectAll, Graph.bareOf_add, Graph.sourcesOf_connectAll,
    Graph.sourcesOf_add]
  split
  · rename_i e
    subst e
    have hall : ((names.map (·, n)).filter fun e => (g.add n x).Joins e.1 e.2 ∧ e.2 = n) = names.map (·, n) := by
      rw [filter_eq_self]
      intro e he
      obtain ⟨s, hs, rfl⟩ := mem_map.mp he
      simp [hjoins s hs]
    rw [hall, Graph.foldl_addNew]
    simp [Function.comp_def]
  · rename_i hne
    have hnone : ((names.map (·, n)).filter fun e => (g.add n x).Joins e.1 e.2 ∧ e.2 = m) = [] := by
      rw [filter_eq_nil_iff]
      intro e he
      obtain ⟨s, hs, rfl⟩ := mem_map.mp he
      simp [hne]
    rw [hnone]
    rfl

theorem position?_eq_some {e : Value} {j : Nat} (h : position? e = some j) :
    ∃ n rest, e = .list (.int n :: rest) ∧ 0 ≤ n ∧ n.toNat = j := by
  unfold position? at h
  split at h
  · rename_i n rest
    split at h
    · rename_i hn
      exact ⟨n, rest, rfl, hn, some.inj h⟩
    · cases h
  · cases h

theorem wire_all (places : List (Nat × String)) (name : String) {ins : List Value} (p : Graph Node × List String)
    (h : ∀ e ∈ ins, (position? e).isSome = true) : ∃ q, ins.foldlM (wire places name) p = .ok q ∧
      q.1 = (p.1.connectAll (((ins.filterMap position?).filterMap fun j => places.lookup j).map (·, name))).1 := by
  induction ins generalizing p with
  | nil => exact ⟨p, rfl, rfl⟩
  | cons e ins ih =>
    obtain ⟨j, hj⟩ := isSome_iff_exists.mp (h e (.head _))
    obtain ⟨n, rest, rfl, hn, rfl⟩ := position?_eq_some hj
    have hneg : ¬n < 0 := by omega
    have hrest := fun p => ih p fun e he => h e (.tail _ he)
    rw [filterMap_cons_some hj, foldlM_cons]
    cases hl : places.lookup n.toNat with
    | none =>
      have hwire : wire places name p (.list (.int n :: rest)) = .ok p := by simp [wire, nodeAt?, hl]
      simp only [hwire, filterMap_cons, hl]
      exact hrest p
    | some source =>
      have hwire : wire places name p (.list (.int n :: rest)) =
          .ok ((p.1.connect source name).1, p.2 ++ (p.1.connect source name).2) := by
        simp [wire, nodeAt?, hneg, hl]
      simp only [hwire, filterMap_cons, hl]
      exact hrest _

structure Placed (nodes listed : List Value) (places : List (Nat × String)) (g : Graph Node) : Prop where
  places : ∀ j, places.lookup j = (listed[j]?.bind vertexOf?).map (·.name)
  vertices : ∀ m u, plainOf g m = some u ↔ Lists nodes listed m u
  mirrored : g.Mirrored
  inputs : g.inputs = []

theorem nodeName?_eq_some : nodeName? v = some name ↔ v.field? "name" = some (.text name) := by
  unfold nodeName?
  split
  · rename_i s h
    rw [h]
    simp
  · rename_i h
    constructor
    · intro e
      cases e
    · intro e
      exact absurd e (h name)

theorem place_named (hname : nodeName? v = some name) : place places i p (v :: rest) =
      if namesWeight name && (nodeOf v).op.isNone then .error Fault.key
      else if namesWeight name && (nodeOf v).op = some "null" then place places (i + 1) p rest
      else orFault Fault.key (v.field? "inputs") >>= fun ins =>
        ins.elems.foldlM (wire ((i, name) :: places) name) (p.1.add name (nodeOf v), p.2) >>= fun q =>
          place ((i, name) :: places) (i + 1) q rest := by
  rw [nodeName?_eq_some] at hname
  rw [place, hname]
  rfl

theorem isComplete_of_place (h : place places i p (v :: rest) = .ok q) :
    isComplete v = true ∧ ∃ places' p', place places' (i + 1) p' rest = .ok q := by
  obtain ⟨name, hname, hrest⟩ := place_cons h
  refine ⟨?_, ?_⟩
  · rw [place_named hname] at h
    split at h
    · cases h
    · rename_i hop
      rw [Bool.not_eq_true] at hop
      rw [isComplete, hname, any_some, hop, Bool.not_false]
  · rcases hrest with hrest | ⟨node, vs, p', -, hrest⟩
    · exact ⟨_, _, hrest⟩
    · exact ⟨_, _, hrest⟩

theorem all_isComplete_of_place (h : place places i p nodes = .ok q) : ∀ v ∈ nodes, isComplete v = true := by
  induction nodes generalizing places i p with
  | nil => exact fun _ hv => absurd hv not_mem_nil
  | cons v rest ih =>
    obtain ⟨hv, places', p', hrest⟩ := isComplete_of_place h
    exact forall_mem_cons.mpr ⟨hv, ih hrest⟩

section
variable {nodes listed : List Value}

theorem Placed.skip (h : Placed nodes listed places g) (hv : vertexOf? v = none) :
    Placed nodes (listed ++ [v]) places g where
  places j := by
    rw [h.places]
    rcases Nat.lt_trichotomy j listed.length with hj | rfl | hj
    · rw [getElem?_append_left hj]
    · simp [hv]
    · rw [getElem?_eq_none (by omega), getElem?_eq_none (by simp; omega)]
  vertices m u := by
    rw [h.vertices]
    refine exists_congr fun x => ?_
    rw [mem_append, mem_singleton, or_and_right, or_iff_left]
    rintro ⟨rfl, w, hw, -⟩
    rw [hv] at hw
    cases hw
  mirrored := h.mirrored
  inputs := h.inputs

theorem vertexOf?_eq_some (h : vertexOf? v = some w) :
    nodeName? v = some w.name ∧ w = { name := w.name, item := nodeOf v } ∧
      (namesWeight w.name && (nodeOf v).op = some "null") = false := by
  obtain ⟨name, hname, hw⟩ := bind_eq_some_iff.mp h
  split at hw
  · cases hw
  · rename_i hop
    cases hw
    exact ⟨hname, rfl, by simpa using hop⟩

theorem Placed.sources (h : Placed nodes listed places g) (hlisted : listed <+: nodes)
    (hv : readsEarlier listed.length v = true) (name : String) :
    ((inputsOf v).filterMap fun j => ((listed.length, name) :: places).lookup j) = sourcesIn nodes v ∧
      ∀ s ∈ sourcesIn nodes v, s ∈ g.vertices.keys := by
  obtain ⟨rest, rfl⟩ := hlisted
  have hearlier := (readsEarlier_spec hv).2
  refine ⟨filterMap_congr fun j hj => ?_, fun s hs => ?_⟩
  · have hj := hearlier j hj
    rw [lookup_cons, beq_false_of_ne (by omega), getElem?_append_left hj]
    exact h.places j
  · obtain ⟨j, hj, hs⟩ := mem_filterMap.mp hs
    rw [getElem?_append_left (hearlier j hj)] at hs
    obtain ⟨w, hw, rfl⟩ := map_eq_some_iff.mp hs
    obtain ⟨x, hx, hw⟩ := bind_eq_some_iff.mp hw
    rw [← isSome_plainOf, isSome_iff_exists]
    exact ⟨_, (h.vertices w.name _).mpr ⟨x, mem_of_getElem? hx, w, hw, rfl, rfl⟩⟩

theorem Placed.next (h : Placed nodes listed places g) (hv : vertexOf? v = some w)
    (hnew : w.name ∉ g.vertices.keys) (hkeys : ∀ s ∈ sourcesIn nodes v, s ∈ g.vertices.keys) :
    Placed nodes (listed ++ [v]) ((listed.length, w.name) :: places)
      ((g.add w.name w.item).connectAll ((sourcesIn nodes v).map (·, w.name))).1 where
  places j := by
    rw [lookup_cons]
    rcases Nat.lt_trichotomy j listed.length with hj | rfl | hj
    · rw [getElem?_append_left hj, beq_false_of_ne (by omega)]
      exact h.places j
    · simp [hv]
    · rw [getElem?_eq_none (by simp; omega), beq_false_of_ne (by omega)]
      rw [h.places, getElem?_eq_none (by omega)]
  vertices m u := by
    obtain ⟨-, hw, -⟩ := vertexOf?_eq_some hv
    have hlast : Lists nodes (listed ++ [v]) m u ↔ Lists nodes listed m u ∨
        w.name = m ∧ u = { w with sources := (sourcesIn nodes v).eraseDups } := by
      simp only [Lists, mem_append, mem_singleton, or_and_right, exists_or, exists_eq_left, hv,
        some.injEq, exists_eq_left']
    rw [plainOf_grow hnew hkeys, hlast]
    split
    · rename_i e
      subst e
      have hnone : ¬ Lists nodes listed w.name u := by
        rw [← h.vertices]
        intro hu
        exact hnew (isSome_plainOf.mp (by rw [hu]; rfl))
      rw [or_iff_right hnone, some.injEq, eq_comm]
      refine ⟨fun hu => ⟨rfl, hu.trans ?_⟩, fun hu => hu.2.trans ?_⟩
      · rw [hw]
      · rw [hw]
    · rename_i hne
      rw [h.vertices, or_iff_left fun hu => hne hu.1]
  mirrored := (h.mirrored.add hnew _).connectAll _
  inputs := by
    rw [Graph.inputs_connectAll]
    exact h.inputs

theorem not_mem_keys (h : Placed nodes listed places g)
    (hnodes : nodes = listed ++ v :: rest) (hnames : (nodes.filterMap vertexOf?).Pairwise (·.name ≠ ·.name))
    (hv : vertexOf? v = some w) : w.name ∉ g.vertices.keys := by
  rw [← isSome_plainOf, isSome_iff_exists]
  rintro ⟨u, hu⟩
  obtain ⟨x, hx, w', hw', hname, -⟩ := (h.vertices _ u).mp hu
  rw [hnodes, filterMap_append, filterMap_cons_some hv, pairwise_append] at hnames
  exact hnames.2.2 w' (mem_filterMap.mpr ⟨x, hx, hw'⟩) w (.head _) hname

theorem place_step (h : Placed nodes listed places p.1)
    (hnodes : nodes = listed ++ v :: rest) (hcomplete : isComplete v = true)
    (hreads : readsEarlier listed.length v = true)
    (hnames : (nodes.filterMap vertexOf?).Pairwise (·.name ≠ ·.name)) : ∃ places' q,
      place places listed.length p (v :: rest) = place places' (listed ++ [v]).length q rest ∧
        Placed nodes (listed ++ [v]) places' q.1 := by
  obtain ⟨name, hname⟩ : ∃ name, nodeName? v = some name := by
    cases hn : nodeName? v with
    | none => simp [isComplete, hn] at hcomplete
    | some name => exact ⟨name, rfl⟩
  have hop : (namesWeight name && (nodeOf v).op.isNone) = false := by
    rw [isComplete, hname, any_some] at hcomplete
    simpa only [Bool.not_eq_true'] using hcomplete
  rw [place_named hname, hop, length_append]
  cases hw : vertexOf? v with
  | none =>
    have hweight : (namesWeight name && (nodeOf v).op = some "null") = true := by
      rw [vertexOf?, hname] at hw
      by_contra hne
      exact absurd (hw.symm.trans (if_neg hne)) (by simp)
    rw [if_pos hweight]
    exact ⟨places, p, rfl, h.skip hw⟩
  | some w =>
    obtain ⟨hname', hself, hweight⟩ := vertexOf?_eq_some hw
    cases hname.symm.trans hname'
    obtain ⟨⟨ins, hins, hpositions⟩, -⟩ := readsEarlier_spec hreads
    obtain ⟨q, hq, hgraph⟩ := wire_all ((listed.length, w.name) :: places) w.name (p.1.add w.name (nodeOf v), p.2)
      hpositions
    obtain ⟨hsources, hkeys⟩ := h.sources ⟨v :: rest, hnodes.symm⟩ hreads w.name
    have hgrown := h.next hw (not_mem_keys h hnodes hnames hw) hkeys
    have hitem : w.item = nodeOf v := by rw [hself]
    rw [inputsOf, hins, elim_some] at hsources
    rw [hitem, ← hsources, ← hgraph] at hgrown
    rw [hweight, hins]
    refine ⟨_, q, ?_, hgrown⟩
    show (ins.elems.foldlM (wire _ w.name) (p.1.add w.name (nodeOf v), p.2) >>= fun q => place _ _ q rest) = _
    rw [hq]
    rfl

theorem place_all (hnodes : nodes = listed ++ rest)
    (h : Placed nodes listed places p.1) (hcomplete : ∀ v ∈ rest, isComplete v = true) (hearlier : ReadsEarlier nodes)
    (hnames : (nodes.filterMap vertexOf?).Pairwise (·.name ≠ ·.name)) :
    ∃ q places', place places listed.length p rest = .ok q ∧ Placed nodes nodes places' q.1 := by
  induction rest generalizing listed places p with
  | nil =>
    rw [append_nil] at hnodes
    subst hnodes
    exact ⟨p, places, rfl, h⟩
  | cons v rest ih =>
    have hreads : readsEarlier listed.length v = true := hearlier.get (by rw [hnodes]; simp)
    obtain ⟨places', q, hplace, hplaced⟩ := place_step h hnodes (hcomplete v (.head _)) hreads hnames
    rw [hplace]
    refine ih ?_ hplaced fun x hx => hcomplete x (.tail _ hx)
    rw [hnodes, append_assoc, singleton_append]

end

/-! ## The start of a conversion -/

def symbolLayers (nodes : List Value) : List String := (nodes.filterMap vertexOf?).flatMap layerNames

structure Listing (nodes : List Value) : Prop where
  earlier : ReadsEarlier nodes
  layers : (symbolLayers nodes).Nodup

section
variable {nodes : List Value}

theorem Listing.disjoint (h : Listing nodes) :
    (nodes.filterMap vertexOf?).Pairwise fun w w' => List.Disjoint (layerNames w) (layerNames w') :=
  (nodup_flatMap.mp h.layers).2

theorem Listing.names (h : Listing nodes) : (nodes.filterMap vertexOf?).Pairwise (·.name ≠ ·.name) := by
  refine h.disjoint.imp fun {w w'} hdisjoint e => ?_
  exact hdisjoint (a := stripped w.name) (by simp [layerNames]) (by simp [layerNames, e])

theorem Listing.apart (h : Listing nodes) (hg : ∀ m u, plainOf g m = some u ↔ Lists nodes nodes m u) : Apart g where
  named m u hu := by
    obtain ⟨v, -, w, hw, rfl, rfl⟩ := (hg m u).mp hu
    refine ⟨rfl, ?_⟩
    rw [(vertexOf?_eq_some hw).2.1]
  own m u hu := by
    obtain ⟨v, hv, w, hw, rfl, rfl⟩ := (hg m u).mp hu
    exact (nodup_flatMap.mp h.layers).1 w (mem_filterMap.mpr ⟨v, hv, hw⟩)
  once m u m' u' hu hu' x hx hx' := by
    obtain ⟨v, hv, w, hw, rfl, rfl⟩ := (hg m u).mp hu
    obtain ⟨v', hv', w', hw', rfl, rfl⟩ := (hg m' u').mp hu'
    have : Std.Symm fun w w' : Vertex Node => List.Disjoint (layerNames w) (layerNames w') := ⟨fun _ _ hd => hd.symm⟩
    by_contra hne
    exact h.disjoint.forall (mem_filterMap.mpr ⟨v, hv, hw⟩) (mem_filterMap.mpr ⟨v', hv', hw'⟩)
      (fun e => hne (congrArg Vertex.name e)) hx hx'

theorem Listing.acc (h : Listing nodes) (hg : ∀ m u, plainOf g m = some u ↔ Lists nodes nodes m u)
    (hi : nodes[i]? = some v) (hw : vertexOf? v = some w) :
    Acc g.Feeds w.name := by
  induction i using Nat.strong_induction_on generalizing v w with
  | _ i ih =>
    refine .intro _ fun s hs => ?_
    have hu : plainOf g w.name = some { w with sources := (sourcesIn nodes v).eraseDups } :=
      (hg _ _).mpr ⟨v, mem_of_getElem? hi, w, hw, rfl, rfl⟩
    rw [feeds_of_plainOf hu, mem_eraseDups] at hs
    obtain ⟨j, hj, hs⟩ := mem_filterMap.mp hs
    obtain ⟨w', hw', rfl⟩ := map_eq_some_iff.mp hs
    obtain ⟨v', hv', hw'⟩ := bind_eq_some_iff.mp hw'
    exact ih j ((readsEarlier_spec (h.earlier.get hi)).2 j hj) hv' hw'

variable {sizes : List Int} {arrays : Option (Table Tensor)} {shapes : Table (List Value)}

variable {b : Base}

theorem isComplete_of_start (h : start nodes sizes arrays shapes = .ok b) : ∀ v ∈ nodes, isComplete v = true := by
  unfold start graphOf at h
  cases hp : place [] 0 ({}, []) nodes with
  | error e =>
    rw [hp] at h
    cases h
  | ok q => exact all_isComplete_of_place hp

structure StartOf (nodes : List Value) (stored : Option (Table Tensor)) (inferred : Table (List Value)) (b : Base) :
    Prop extends Opening b where
  vertices : ∀ m u, plainOf b.graph m = some u ↔ Lists nodes nodes m u
  shapes : b.own.shapes = inferred
  arrays : b.own.arrays = stored
  loaded : b.loaded = stored.isSome

variable (sizes arrays shapes) in
theorem Listing.start (h : Listing nodes) (hcomplete : ∀ v ∈ nodes, isComplete v = true) :
    ∃ b, start nodes sizes arrays shapes = .ok b ∧ StartOf nodes arrays shapes b := by
  have hempty : Placed nodes [] [] {} := by
    refine ⟨fun j => by simp, fun m u => ?_, .empty, rfl⟩
    have hnone : plainOf {} m = none := rfl
    simp [hnone, Lists]
  obtain ⟨q, places, hq, hplaced⟩ := place_all (List.nil_append nodes).symm (p := ({}, []))
    hempty hcomplete h.earlier h.names
  have hwired := hplaced.mirrored.toWired
  have hstart : MxNet.start nodes sizes arrays shapes = .ok
      { graph := q.1.finish, log := q.2, loaded := arrays.isSome
        own := { arrays := arrays, dataShape := 1 :: sizes, shapes := shapes } } := by
    unfold MxNet.start graphOf
    rw [List.length_nil] at hq
    rw [hq]
    rfl
  have horder : q.1.finish.order = q.1.orderOf q.1.sourceless := Graph.order_finish hplaced.inputs
  have hvertices : ∀ m u, plainOf q.1.finish m = some u ↔ Lists nodes nodes m u := hplaced.vertices
  refine ⟨_, hstart, ⟨⟨h.apart hvertices, ?_, ?_, fun m => ?_, rfl, rfl, rfl, rfl⟩, hvertices, rfl, rfl, rfl⟩⟩
  · rw [horder]
    exact Graph.orderOf_nodup hwired
  · rw [horder]
    exact Graph.orderOf_preceded hwired
  · show m ∈ q.1.finish.order ↔ (plainOf q.1 m).isSome = true
    rw [horder, Graph.mem_orderOf_iff_cycleFree hplaced.mirrored, isSome_plainOf, and_iff_left_iff_imp,
      ← isSome_plainOf, Option.isSome_iff_exists]
    rintro ⟨u, hu⟩
    obtain ⟨v, hv, w, hw, rfl, rfl⟩ := (hplaced.vertices m u).mp hu
    obtain ⟨i, hi⟩ := List.mem_iff_getElem?.mp hv
    exact Graph.cycleFree_of_acc (h.acc hplaced.vertices hi hw)

theorem Listing.startOf (h : Listing nodes) (hb : MxNet.start nodes sizes arrays shapes = .ok b) :
    StartOf nodes arrays shapes b := by
  obtain ⟨b', hb', hstart⟩ := h.start sizes arrays shapes (isComplete_of_start hb)
  cases hb'.symm.trans hb
  exact hstart

end

end NetBridge.Source.MxNet
