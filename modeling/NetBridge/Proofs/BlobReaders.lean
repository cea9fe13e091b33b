import NetBridge.Proofs.BuilderSteps
import NetBridge.Source.CoreMl

/-!
# The order in which a layer reads

The edges of a Core ML model are looked for producer by producer: the layers in the order of the model, then the
inputs. A layer so reads its sources in that order, whatever the order of the blobs that it lists.
-/

namespace NetBridge

open List

/-! ## Edges in groups -/

variable {α β : Type}

namespace Graph

variable {acc : List String} {ps : List (String × β)} {g : Graph α}

theorem foldl_addNew_of_mem {l : List String} (h : ∀ x ∈ l, x ∈ acc) : l.foldl addNew acc = acc := by
  have hnone : l.filter (fun x => !acc.contains x) = [] :=
    filter_eq_nil_iff.mpr fun x hx => by simpa using h x hx
  rw [foldl_addNew, hnone, eraseDups_nil, append_nil]

theorem foldl_addNew_groups {f : String × β → List String}
    (hf : ∀ p ∈ ps, ∀ x ∈ f p, x = p.1) (hnames : (ps.map (·.1)).Nodup) (hacc : ∀ p ∈ ps, p.1 ∉ acc) :
    (ps.flatMap f).foldl addNew acc = acc ++ (ps.filter fun p => !(f p).isEmpty).map (·.1) := by
  induction ps generalizing acc with
  | nil => simp
  | cons p ps ih =>
    obtain ⟨hp, hps⟩ := nodup_cons.mp hnames
    have hf' := fun q hq => hf q (.tail _ hq)
    rw [flatMap_cons, foldl_append, filter_cons]
    cases hgroup : f p with
    | nil => exact ih hf' hps fun q hq => hacc q (.tail _ hq)
    | cons x xs =>
      have hall (y : String) (hy : y ∈ x :: xs) : y = p.1 := hf p (.head _) y (hgroup ▸ hy)
      have hnew : addNew acc x = acc ++ [p.1] := by
        rw [hall x (.head _), addNew]
        simpa using hacc p (.head _)
      have hrest : xs.foldl addNew (acc ++ [p.1]) = acc ++ [p.1] :=
        foldl_addNew_of_mem fun y hy => by simp [hall y (.tail _ hy)]
      rw [foldl_cons, hnew, hrest, ih hf' hps]
      · simp
      · intro q hq hmem
        rcases mem_append.mp hmem with h | h
        · exact hacc q (.tail _ hq) h
        · exact hp (mem_map.mpr ⟨q, hq, mem_singleton.mp h⟩)

theorem sourcesOf_connectAll_groups
    {edges : String × β → List (String × String)} {m : String} (hedges : ∀ p ∈ ps, ∀ e ∈ edges p, e.1 = p.1)
    (hnames : (ps.map (·.1)).Nodup) (hnone : g.sourcesOf m = []) : (g.connectAll (ps.flatMap edges)).1.sourcesOf m =
      (ps.filter fun p => g.Joins p.1 m ∧ (p.1, m) ∈ edges p).map (·.1) := by
  rw [sourcesOf_connectAll, hnone, filter_flatMap, map_flatMap, foldl_addNew_groups _ hnames (by simp),
    nil_append]
  · congr 1
    refine filter_congr fun p hp => ?_
    rw [Bool.eq_iff_iff]
    simp only [Bool.not_eq_true', isEmpty_eq_false_iff_exists_mem, mem_map, mem_filter,
      decide_eq_true_eq]
    constructor
    · rintro ⟨x, ⟨a, c⟩, ⟨he, hjoins, rfl⟩, rfl⟩
      obtain rfl : a = p.1 := hedges p hp _ he
      exact ⟨hjoins, he⟩
    · rintro ⟨hjoins, he⟩
      exact ⟨p.1, (p.1, m), ⟨he, hjoins, rfl⟩, rfl⟩
  · intro p hp x hx
    obtain ⟨e, he, rfl⟩ := mem_map.mp hx
    exact hedges p hp e (mem_filter.mp he).1

theorem Labelled.outputName (h : g.Labelled) (n : String) : g.outputName n = n := by
  rw [Graph.outputName]
  cases hn : g.vertices.find? n with
  | none => rfl
  | some v => exact (h.find? hn).2

end Graph

/-! ## Rules that read all sources -/

namespace Source

open Run

variable {σ : Type}

def inputsOf (b : Builder α σ) : List (List String) := b.layers.toList.map (·.inputs)

def SameInputs (b b' : Builder α σ) : Prop := b'.graph = b.graph ∧ inputsOf b' = inputsOf b

instance (k : Nat) : Edits (SameInputs (α := α) (σ := σ)) k (·.inputs) where
  edit b₀ b f h hf := by
    refine ⟨h.1, Eq.trans ?_ h.2⟩
    rw [inputsOf, Array.toList_modify]
    exact map_modify k (by simpa [layerAt] using hf)
  touch _ _ := rfl

instance (name : String) : Unseen (·.inputs) name := ⟨fun _ _ => rfl⟩

instance (line : String) : Stays SameInputs (say line : Build α σ Unit) := ⟨fun _ => .modify fun _ h => h⟩

instance (layer name : String) (v : Value) : Stays SameInputs (setWeight layer name v : Build α σ Unit) :=
  ⟨fun _ => .modify fun _ h => h⟩

instance (k : Nat) (name : String) : Stays SameInputs (setName k name : Build α σ Unit) := stays_edit fun _ => rfl

instance (k : Nat) (op : String) : Stays SameInputs (setOp k op : Build α σ Unit) := stays_edit fun _ => rfl

structure Reading (g : Graph α) (is : List (List String)) (b : Builder α σ) : Prop where
  graph : b.graph = g
  inputs : inputsOf b = is

def Carries (g : Graph α) (v : Vertex α) (x : Build α σ β) : Prop :=
  ∀ is, Triple (Reading g is) x fun _ => Reading g (is ++ [v.sources.map g.outputName])

section
variable {g : Graph α} {v : Vertex α} {is : List (List String)}

variable {x : Build α σ β}

theorem reading_of_stays (hx : Stays SameInputs x) : Keeps (Reading g is) x := by
  intro b hb a b' h
  obtain ⟨hgraph, hinputs⟩ := hx.keeps b b ⟨rfl, rfl⟩ a b' h
  exact ⟨hgraph.trans hb.graph, hinputs.trans hb.inputs⟩

theorem keeps_reading [hx : Stays SameInputs x] : Keeps (Reading g is) x :=
  reading_of_stays hx

theorem Carries.newLayer {f : Nat → Build α σ β} (hf : ∀ is, Triple (Reading g (is ++ [[]])) (f is.length)
    fun _ => Reading g (is ++ [v.sources.map g.outputName])) : Carries g v (newLayer >>= f) := by
  intro is b hb a b' h
  obtain ⟨k, b₁, ⟨⟩, h⟩ := step_cases h
  have hlen : b.layers.size = is.length := by rw [← hb.inputs, inputsOf, length_map, Array.length_toList]
  rw [hlen] at h
  have hnew : Reading g (is ++ [[]]) { b with layers := b.layers.push {} } :=
    ⟨hb.graph, by simp [← hb.inputs, inputsOf]⟩
  exact hf is _ hnew a b' h

theorem Carries.bind {γ : Type} {f : β → Build α σ γ} (hx : Carries g v x)
    (hf : ∀ a, Stays SameInputs (f a)) : Carries g v (x >>= f) :=
  fun is => (hx is).bind fun a => reading_of_stays (hf a)

theorem addInput_reading {ins : List String} (x : String) :
    Triple (Reading g (is ++ [ins])) (addInput is.length x : Build α σ Unit) fun _ =>
      Reading g (is ++ [ins ++ [x]]) := by
  refine .modify fun b hb => ⟨hb.graph, ?_⟩
  obtain ⟨ls, ls', hl, hls, hl'⟩ := map_eq_append_iff.mp hb.inputs
  obtain ⟨l, rfl, rfl⟩ := map_eq_singleton_iff.mp hl'
  rw [inputsOf, Array.toList_modify, hl, ← hls, length_map, modify_last]
  simp

theorem outputNameOf_reading (n : String) : Gets (Reading g is) (outputNameOf n : Build α σ String)
    fun x => x = g.outputName n := by
  intro b hb x b' h
  obtain ⟨u, hu, h⟩ := vertex_bind_eq_ok h
  obtain ⟨rfl, rfl⟩ := pure_eq_ok.mp h
  refine ⟨hb, ?_⟩
  rw [← hb.graph, Graph.outputName, hu]
  rfl

theorem readSources_reading : Triple (Reading g (is ++ [[]])) (readSources v is.length : Build α σ Unit)
    fun _ => Reading g (is ++ [v.sources.map g.outputName]) := by
  have hloop := Triple.forM (l := range v.sources.length)
    (f := fun i => (do addInput is.length (← outputNameOf (← orFault Fault.position v.sources[i]?)) : Build α σ Unit))
    (I := fun done => Reading g (is ++ [(v.sources.take done.length).map g.outputName])) fun done i todo hl => ?_
  · simpa [readSources] using hloop
  · -- the place whose turn it is stands for the number of sources read so far
    have hat : (range v.sources.length)[done.length]? = some i := by rw [hl]; simp
    obtain ⟨_, hi⟩ := List.getElem?_eq_some_iff.mp hat
    rw [getElem_range] at hi
    subst hi
    refine .bind_of (.lift fun p hp b hb => ⟨hb, orFault_eq_ok.mp hp⟩) fun p hp => ?_
    refine .bind_of (outputNameOf_reading p) fun x hx => ?_
    have hstep : (v.sources.take (done ++ [done.length]).length).map g.outputName =
        (v.sources.take done.length).map g.outputName ++ [x] := by
      simp [take_add_one, hp, hx]
    rw [hstep]
    exact addInput_reading x

theorem convertAll_inputs {rule : Vertex α → Build α σ Unit}
    (hrule : ∀ n v, g.vertices.find? n = some v → Carries g v (rule v)) :
    Triple (Reading g []) (convertAll rule : Build α σ Unit)
      fun _ => Reading g (g.order.map fun n => (g.sourcesOf n).map g.outputName) := by
  intro b hb a b' h
  obtain ⟨_, _, ⟨⟩, h⟩ := step_cases h
  rw [hb.graph] at h
  refine Triple.forM (I := fun done => Reading g (done.map fun n => (g.sourcesOf n).map g.outputName))
    (fun done n todo _ => ?_) b hb a b' h
  intro c hc u c' hrun
  obtain ⟨v, hv, hrun⟩ := vertex_bind_eq_ok hrun
  rw [hc.graph] at hv
  have hmade := hrule n v hv _ c hc u c' hrun
  rwa [map_append, map_singleton, Graph.sourcesOf_of_find? hv]

end

end Source

/-! ## Core ML models -/

namespace Source.CoreMl

open Run

variable {g : Graph Item} {v : Vertex Item} {n : Node} {k : Nat} {op : String}

instance : Stays SameInputs (outputSizes n) := by unfold outputSizes; infer_instance

instance : Stays SameInputs (identify v n k op) := by unfold identify; infer_instance

instance (p : WindowPads) (isPool : Bool) : Stays SameInputs (setPads k p isPool) := by
  unfold setPads
  split
  · infer_instance
  · infer_instance
  · split
    · split <;> infer_instance
    · infer_instance
  · infer_instance

theorem carry_carries : Carries g v (carry v n op) :=
  .newLayer fun _ => keeps_reading.bind fun _ => readSources_reading.bind fun _ => keeps_pure

instance (c : Convolution) : Stays SameInputs (storeKernel v c) := by
  unfold storeKernel
  split
  · infer_instance
  · refine .step fun t => .step fun _ => ?_
    split <;> infer_instance

theorem convolution_carries (c : Convolution) : Carries g v (convolution v n c) :=
  .newLayer fun _ => readSources_reading.bind fun _ => keeps_reading

theorem activation_carries (a : Activation) : Carries g v (activation v n a) := by
  refine .newLayer fun is => ?_
  cases a.kind.bind activationOp? with
  | none => exact keeps_reading.bind fun _ => readSources_reading
  | some op => exact keeps_reading.bind fun _ => keeps_reading.bind fun _ => readSources_reading

theorem batchNorm_carries (b : BatchNorm) : Carries g v (batchNorm v n b) := by
  refine carry_carries.bind fun k => ?_
  cases b.gamma with
  | none => cases b.beta <;> infer_instance
  | some xs => cases b.beta <;> infer_instance

theorem convertItem_carries : Carries g v (convertItem v) := by
  unfold convertItem
  split
  · refine .newLayer fun _ => ?_
    iterate 4 refine keeps_reading.bind fun _ => ?_
    exact readSources_reading.bind fun _ => keeps_reading
  · unfold convertLayer
    split
    all_goals first
      | with_reducible exact convolution_carries _
      | with_reducible exact batchNorm_carries _
      | with_reducible exact activation_carries _
      | exact carry_carries.bind fun _ => inferInstance
      | exact fun is => keeps_reading.bind fun _ => .throw

/-! ## Producers -/

def Model.producers (m : Model) : List (String × List String) :=
  m.layers.map (fun l => (l.1, l.2.outputs)) ++ m.inputs.map fun i => (i.1, [i.1])

/-- All names are distinct, and no blob has two producers. -/
structure Model.Sound (m : Model) : Prop where
  names : (m.producers.map (·.1)).Nodup
  blobs : ∀ p ∈ m.producers, ∀ q ∈ m.producers, ∀ o ∈ p.2, o ∈ q.2 → p = q

def Model.feeders (m : Model) (l : Node) : List String :=
  (l.inputs.filterMap fun o => (m.producers.find? (·.2.contains o)).map (·.1)).eraseDups

variable {l : Node} {m : Model}

theorem Model.Sound.mem_feeders (hm : m.Sound) {p : String × List String}
    (hp : p ∈ m.producers) : p.1 ∈ m.feeders l ↔ ∃ o ∈ p.2, o ∈ l.inputs := by
  simp only [feeders, mem_eraseDups, mem_filterMap, Option.map_eq_some_iff]
  constructor
  · rintro ⟨o, ho, q, hq, hname⟩
    obtain rfl := inj_on_of_nodup_map hm.names (mem_of_find?_eq_some hq) hp hname
    exact ⟨o, by simpa using find?_some hq, ho⟩
  · rintro ⟨o, hop, ho⟩
    cases hq : m.producers.find? (·.2.contains o) with
    | none => exact absurd hop (by simpa using find?_eq_none.mp hq p hp)
    | some q =>
      have hoq : o ∈ q.2 := by simpa using find?_some hq
      exact ⟨o, ho, q, hq, congrArg Prod.fst (hm.blobs q (mem_of_find?_eq_some hq) p hp o hoq hop)⟩

theorem addAll_spec {β : Type} (f : β → Item) (xs : List (String × β)) {g : Graph Item} (hg : g.Labelled)
    (hnone : ∀ m, g.sourcesOf m = []) : (xs.foldl (fun g x => g.add x.1 (f x.2)) g).Labelled ∧
    (∀ m, (xs.foldl (fun g x => g.add x.1 (f x.2)) g).sourcesOf m = []) ∧
    ∀ m, m ∈ (xs.foldl (fun g x => g.add x.1 (f x.2)) g).vertices.keys ↔ m ∈ xs.map (·.1) ∨ m ∈ g.vertices.keys := by
  induction xs generalizing g with
  | nil => exact ⟨hg, hnone, by simp⟩
  | cons x xs ih =>
    obtain ⟨hlabelled, hsources, hkeys⟩ := ih (hg.add x.1 (f x.2)) fun m => by
      rw [Graph.sourcesOf_add, hnone, ite_self]
    refine ⟨hlabelled, hsources, fun m => ?_⟩
    rw [foldl_cons, hkeys, Graph.mem_keys_add, map_cons, mem_cons]
    tauto

theorem edges_eq (m : Model) : edges m = m.producers.flatMap fun p => m.layers.flatMap fun l =>
    p.2.flatMap fun o => (l.2.inputs.filter (· == o)).map fun _ => (p.1, l.1) := by
  simp [edges, Model.producers, flatMap_map]

theorem placed_spec (m : Model) : ∃ g : Graph Item, (graphOf m).1 = (g.connectAll (edges m)).1.finish ∧ g.Labelled ∧
    (∀ n, g.sourcesOf n = []) ∧ ∀ n, n ∈ g.vertices.keys ↔ n ∈ m.producers.map (·.1) := by
  obtain ⟨hlabelled, hnone, hkeys⟩ := addAll_spec Item.image m.inputs Graph.Labelled.empty fun _ => rfl
  obtain ⟨hlabelled', hnone', hkeys'⟩ := addAll_spec Item.layer m.layers hlabelled hnone
  refine ⟨_, rfl, hlabelled', hnone', fun n => (hkeys' n).trans ?_⟩
  rw [hkeys, show ({} : Graph Item).vertices.keys = [] from rfl]
  simp [Model.producers]

theorem sourcesOf_graphOf (hm : m.Sound) {n : String} (hl : (n, l) ∈ m.layers) :
    (graphOf m).1.sourcesOf n = (m.producers.map (·.1)).filter fun p => p ≠ n ∧ p ∈ m.feeders l := by
  obtain ⟨g, hg, -, hnone, hkeys⟩ := placed_spec m
  have hnames : (m.layers.map (·.1)).Nodup := by
    have hall := hm.names
    rw [Model.producers, map_append, map_map] at hall
    exact (nodup_append.mp hall).1
  have hn : n ∈ g.vertices.keys := (hkeys n).mpr (by
    simp only [Model.producers, map_append, map_map, mem_append]
    exact .inl (mem_map.mpr ⟨(n, l), hl, rfl⟩))
  rw [hg, show ((g.connectAll (edges m)).1.finish).sourcesOf n = (g.connectAll (edges m)).1.sourcesOf n from rfl,
    edges_eq, Graph.sourcesOf_connectAll_groups _ hm.names (hnone n), filter_map]
  · congr 1
    refine filter_congr fun p hp => ?_
    have hedge : (p.1, n) ∈ (m.layers.flatMap fun c => p.2.flatMap fun o =>
        (c.2.inputs.filter (· == o)).map fun _ => (p.1, c.1)) ↔ p.1 ∈ m.feeders l := by
      rw [hm.mem_feeders hp]
      simp only [mem_flatMap, mem_map, mem_filter, beq_iff_eq, Prod.mk.injEq]
      constructor
      · rintro ⟨c, hc, o, ho, i, ⟨hi, rfl⟩, -, hname⟩
        obtain rfl : c = (n, l) := inj_on_of_nodup_map hnames hc hl hname
        exact ⟨i, ho, hi⟩
      · rintro ⟨o, ho, hi⟩
        exact ⟨(n, l), hl, o, ho, o, ⟨hi, rfl⟩, trivial, rfl⟩
    have hkey : p.1 ∈ g.vertices.keys := (hkeys p.1).mpr (mem_map_of_mem hp)
    simp only [Function.comp, Graph.Joins, hedge, hn, hkey, and_true]
  · intro p hp e he
    simp only [mem_flatMap, mem_map] at he
    obtain ⟨_, -, _, -, _, -, rfl⟩ := he
    rfl

theorem sources_eq_feeders_iff (hm : m.Sound) {n : String} (hl : (n, l) ∈ m.layers) :
    (graphOf m).1.sourcesOf n = m.feeders l ↔ n ∉ m.feeders l ∧ (m.feeders l).Sublist (m.producers.map (·.1)) := by
  rw [sourcesOf_graphOf hm hl]
  constructor
  · intro h
    refine ⟨fun hn => ?_, h ▸ filter_sublist⟩
    rw [← h] at hn
    simpa using (mem_filter.mp hn).2
  · rintro ⟨hn, hsub⟩
    have hkept : (m.feeders l).filter (fun p => p ≠ n ∧ p ∈ m.feeders l) = m.feeders l :=
      filter_eq_self.mpr fun p hp => by simpa using ⟨fun e => hn (e ▸ hp), hp⟩
    have hfilter := hsub.filter fun p => p ≠ n ∧ p ∈ m.feeders l
    rw [hkept] at hfilter
    refine (hfilter.eq_of_length (List.Perm.length_eq ?_)).symm
    refine (perm_ext_iff_of_nodup (hm.names.sublist hsub) (hm.names.filter _)).mpr fun p => ?_
    rw [mem_filter]
    constructor
    · intro hp
      exact ⟨hsub.subset hp, by simpa using ⟨fun e => hn (e ▸ hp), hp⟩⟩
    · simp

/-- A layer has an edge from every producer of a blob that it reads. The edges come in the order in which it reads just
if that is the order of the model, and its layer of the network reads them as they come. -/
theorem reading_order_iff {m : Model} (hm : m.Sound) {n : String} {l : Node} (hl : (n, l) ∈ m.layers) :
    (∀ p, p ∈ (graphOf m).1.sourcesOf n ↔ p ∈ m.feeders l ∧ p ≠ n) ∧
    ((graphOf m).1.sourcesOf n = m.feeders l ↔ n ∉ m.feeders l ∧ (m.feeders l).Sublist (m.producers.map (·.1))) ∧
    ∀ (b₀ b : Builder Item State) (i : Nat), b₀.graph = (graphOf m).1 → b₀.layers = #[] →
      convert.outcome b₀ = (.ok (), b) → (graphOf m).1.order[i]? = some n →
      ∃ k, b.layers[i]? = some k ∧ k.inputs = (graphOf m).1.sourcesOf n := by
  refine ⟨fun p => ?_, sources_eq_feeders_iff hm hl, fun b₀ b i hgraph hlayers hrun hi => ?_⟩
  · have hproducer (hp : p ∈ m.feeders l) : p ∈ m.producers.map (·.1) := by
      rw [Model.feeders, mem_eraseDups] at hp
      obtain ⟨o, -, ho⟩ := mem_filterMap.mp hp
      obtain ⟨q, hq, rfl⟩ := Option.map_eq_some_iff.mp ho
      exact mem_map_of_mem (mem_of_find?_eq_some hq)
    rw [sourcesOf_graphOf hm hl, mem_filter, decide_eq_true_eq]
    constructor
    · rintro ⟨-, hne, hp⟩
      exact ⟨hp, hne⟩
    · rintro ⟨hp, hne⟩
      exact ⟨hproducer hp, hne, hp⟩
  · obtain ⟨g, hg, hlabelled, -⟩ := placed_spec m
    have hnames : (graphOf m).1.outputName = id := by
      rw [hg]
      exact funext (hlabelled.connectAll (edges m)).outputName
    have hstart : Reading (graphOf m).1 [] b₀ := ⟨hgraph, by rw [inputsOf, hlayers]; rfl⟩
    have hread := (convertAll_inputs (fun _ _ _ => convertItem_carries) b₀ hstart () b hrun).inputs
    have hat := congrArg (·[i]?) hread
    simp only [inputsOf, getElem?_map, hi, hnames, map_id] at hat
    obtain ⟨k, hk, hinputs⟩ := Option.map_eq_some_iff.mp hat
    exact ⟨k, by simpa using hk, hinputs⟩

def joint (blobs : List String) : Node := { inputs := blobs, outputs := ["y"], kind := .concat }

def joining (blobs : List String) : Model where
  inputs := [("x", { width := 2, height := 2, colorSpace := 20 })]
  layers := [("first", { inputs := ["x"], outputs := ["a"], kind := .softmax }),
    ("second", { inputs := ["x"], outputs := ["b"], kind := .softmax }), ("joint", joint blobs)]

def joiningStart (blobs : List String) : Builder Item State where
  graph := (graphOf (joining blobs)).1
  own := Table.ofList (["a", "b", "y"].map fun o => (o, [1, 1, 3, 2, 2].map .int))

theorem sound_joining (blobs : List String) : (joining blobs).Sound := by
  have hproducers : (joining blobs).producers = [("first", ["a"]), ("second", ["b"]), ("joint", ["y"]), ("x", ["x"])] :=
    rfl
  constructor
  · rw [hproducers]
    decide
  · rw [hproducers]
    decide

theorem reading_order_iff_joint :
    (graphOf (joining ["a", "b"])).1.sourcesOf "joint" = (joining ["a", "b"]).feeders (joint ["a", "b"]) ∧
    ∃ b k, convert.outcome (joiningStart ["a", "b"]) = (.ok (), b) ∧ b.layers[3]? = some k ∧
      k.inputs = (graphOf (joining ["a", "b"])).1.sourcesOf "joint" := by
  have hall := reading_order_iff (sound_joining ["a", "b"]) (n := "joint") (l := joint ["a", "b"]) (by simp [joining])
  have hrun := outcome_of_isSome (x := convert) (s := joiningStart ["a", "b"]) (by decide +kernel)
  obtain ⟨k, hk⟩ := hall.2.2 _ _ 3 rfl rfl hrun (by decide +kernel)
  exact ⟨hall.2.1.mpr (by decide +kernel), _, k, hrun, hk⟩

theorem joint_out_of_order : (joining ["b", "a"]).Sound ∧
    (joining ["b", "a"]).feeders (joint ["b", "a"]) = ["second", "first"] ∧
    (graphOf (joining ["b", "a"])).1.sourcesOf "joint" = ["first", "second"] ∧
    (convert.outcome (joiningStart ["b", "a"])).1.toOption = some () ∧
    inputsOf (convert.outcome (joiningStart ["b", "a"])).2 = [[], ["x"], ["x"], ["first", "second"]] :=
  ⟨sound_joining _, by decide +kernel, by decide +kernel, by decide +kernel, by decide +kernel⟩

end Source.CoreMl

end NetBridge
