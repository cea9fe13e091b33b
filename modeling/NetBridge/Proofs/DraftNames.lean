import NetBridge.Prototxt.Convert
import NetBridge.Proofs.BuilderSteps
import NetBridge.Proofs.NetOrder

/-!
# The names of the layers of a net

A node becomes one layer under its own name, an inner product two with a number (`mapNode_spec`), and every name that
is read is the name of a layer (`draft_references_named`). A node that has the name of a layer of an inner product
takes its place (`draft_layers_complete_iff`).
-/

namespace NetBridge.Prototxt

open List

def Node.isDense (n : Node) : Bool := n.kind.any (handlerName · == "inner_product")

def Node.layerNames (n : Node) : List String :=
  if n.isDense then [n.name ++ "_0", n.name ++ "_1"] else [n.name]

def Node.outputName (n : Node) : String := if n.isDense then n.name ++ "_1" else n.name

theorem Node.outputName_mem (n : Node) : n.outputName ∈ n.layerNames := by
  unfold outputName layerNames
  split <;> simp

/-! ## The layers of a node -/

def GivesFresh (k : Nat) (x : Except Fault (List DraftLayer)) : Prop :=
  ∀ ls, x = .ok ls → ls.length = k ∧ ∀ l ∈ ls, l.layer.inputs = []

variable {names names' : LayerNames} {attrs : List (String × Value)} {ls : List DraftLayer} {g : Net} {n : Node}
  {op : String}

section
variable {k : Nat} {α : Type}

theorem GivesFresh.bind {x : Except Fault α} {f : α → Except Fault (List DraftLayer)} (h : ∀ a, GivesFresh k (f a)) :
    GivesFresh k (x >>= f) := by
  intro ls hls
  obtain ⟨a, -, ha⟩ := bind_cases hls
  exact h a ls ha

theorem GivesFresh.error {e : Fault} : GivesFresh k (.error e) := nofun

theorem inputs_create {l : DraftLayer} (h : DraftLayer.create op attrs = .ok l) : l.layer.inputs = [] := by
  have hheader : Source.header (({ op := op } : Layer).assignAll .prototxt attrs).2 = Source.header { op := op } :=
    Source.Unseen.assignAll .prototxt (fun _ _ => inferInstance) _
  unfold DraftLayer.create at h
  split at h
  · rename_i hassign
    rw [hassign] at hheader
    cases h
    exact congrArg Prod.snd hheader
  · cases h

theorem GivesFresh.create : GivesFresh 1 (do return [← DraftLayer.create op attrs]) := by
  intro ls hls
  obtain ⟨l, hl, ⟨⟩⟩ := bind_cases hls
  exact ⟨rfl, by simpa using inputs_create hl⟩

theorem GivesFresh.oneLayer : GivesFresh 1 (oneLayer op attrs n) :=
  .bind fun _ => .create

end

theorem denseLayers_fresh (g : Net) (i : Nat) : GivesFresh 2 (denseLayers g i) := by
  refine .bind fun l => .bind fun _ => .bind fun ⟨p, _⟩ => .bind fun s => .bind fun size => ?_
  intro ls hls
  obtain ⟨flat, hflat, hls⟩ := bind_cases hls
  obtain ⟨dense, hdense, ⟨⟩⟩ := bind_cases hls
  refine ⟨rfl, ?_⟩
  simp [inputs_create hflat, inputs_create hdense]

theorem convLayer_fresh (op : String) (transposed : Bool) (g : Net) (i : Nat) :
    GivesFresh 1 (convLayer op transposed g i) :=
  .bind fun ⟨_, _⟩ => .bind fun _ => .bind fun _ => .bind fun _ => .bind fun _ => .bind fun _ => .create

theorem poolLayer_fresh (g : Net) (i : Nat) : GivesFresh 1 (poolLayer g i) := by
  refine .bind fun ⟨_, _⟩ => .bind fun _ => .bind fun _ => ?_
  split
  · exact .bind fun _ => .create
  · split <;> exact .bind fun _ => .create

theorem eltwiseLayer_fresh (g : Net) (i : Nat) : GivesFresh 1 (eltwiseLayer g i) := by
  refine .bind fun _ => ?_
  dsimp only
  split
  · exact .bind fun _ => .create
  · split
    · exact .bind fun _ => .create
    · split <;> exact .bind fun _ => .create

theorem rule_fresh {handler : String} {rule : NodeRule} (h : nodeRule? handler = some rule) (g : Net) (i : Nat) :
    GivesFresh (if handler = "inner_product" then 2 else 1) (rule g i) := by
  by_cases hd : handler = "inner_product"
  · subst hd
    cases h
    exact denseLayers_fresh g i
  · unfold nodeRule? at h
    split at h <;> cases h
    -- the rules without a lemma of their own look up at most three things before they make a layer
    all_goals first
      | exact absurd rfl hd
      | exact convLayer_fresh _ _ g i
      | exact poolLayer_fresh g i
      | exact eltwiseLayer_fresh g i
      | exact .error
      | exact .create
      | exact .oneLayer
      | exact .bind fun _ => .oneLayer
      | exact .bind fun _ => .bind fun _ => .oneLayer
      | exact .bind fun _ => .bind fun _ => .create
      | exact .bind fun _ => .bind fun _ => .bind fun _ => .oneLayer

theorem placeLayers_spec (inputs : List String)
    (hlength : ls.length = if n.isDense then 2 else 1) (hfresh : ∀ l ∈ ls, l.layer.inputs = []) :
    (placeLayers n inputs ls).1.map (·.layer.name) = n.layerNames ∧ (placeLayers n inputs ls).2 = n.outputName ∧
      ∀ l ∈ (placeLayers n inputs ls).1, ∀ x ∈ l.layer.inputs, x ∈ n.layerNames ∨ x ∈ inputs := by
  have hzero : n.name ++ "_" ++ Nat.repr 0 = n.name ++ "_0" := String.append_assoc
  have hone : n.name ++ "_" ++ Nat.repr 1 = n.name ++ "_1" := String.append_assoc
  unfold Node.layerNames Node.outputName
  split at hlength
  · rename_i hdense
    obtain ⟨a, b, rfl⟩ := length_eq_two.mp hlength
    have ha := hfresh a (by simp)
    have hb := hfresh b (by simp)
    simp +contextual [placeLayers, hdense, hzero, hone, ha, hb]
  · rename_i hdense
    obtain ⟨a, rfl⟩ := length_eq_one_iff.mp hlength
    have ha := hfresh a (by simp)
    simp +contextual [placeLayers, hdense, ha]

theorem mapNode_spec {i : Nat} (h : mapNode g names i = .ok (ls, names')) :
    ls.map (·.layer.name) = (g.node i).layerNames ∧ names' = names.insert (g.node i).name (g.node i).outputName ∧
      ∀ l ∈ ls, ∀ x ∈ l.layer.inputs,
        x ∈ (g.node i).layerNames ∨ ∃ p ∈ g.sources i, names.find? (g.node p).name = some x := by
  obtain ⟨kind, hkind, h⟩ := bind_cases h
  obtain ⟨rule, hrule, h⟩ := bind_cases h
  obtain ⟨made, hmade, h⟩ := bind_cases h
  obtain ⟨inputs, hinputs, h⟩ := bind_cases h
  obtain ⟨rfl, rfl⟩ : (placeLayers (g.node i) inputs made).1 = ls ∧
      names.insert (g.node i).name (placeLayers (g.node i) inputs made).2 = names' := Prod.mk.inj (Except.ok.inj h)
  have hdense : (g.node i).isDense = decide (handlerName kind = "inner_product") := by
    rw [Node.isDense, orFault_eq_ok.mp hkind]
    rfl
  obtain ⟨hlength, hfresh⟩ := rule_fresh (orFault_eq_ok.mp hrule) g i made hmade
  have hlength : made.length = if (g.node i).isDense then 2 else 1 := by simpa [hdense] using hlength
  obtain ⟨hnames, houtput, hreads⟩ := placeLayers_spec inputs hlength hfresh
  refine ⟨hnames, by rw [houtput], fun l hl x hx => ?_⟩
  rcases hreads l hl x hx with hx | hx
  · exact .inl hx
  · obtain ⟨p, hp, hfound⟩ := exists_of_mem_mapM hinputs hx
    refine .inr ⟨p, hp, ?_⟩
    unfold Table.get at hfound
    split at hfound
    · cases hfound
      assumption
    · cases hfound

/-! ## The layers of all nodes -/

variable {is : List Nat} {name : String}

theorem mapNodes_names (h : mapNodes g names is = .ok (ls, names')) :
    ls.map (·.layer.name) = is.flatMap fun i => (g.node i).layerNames := by
  induction is generalizing names ls with
  | nil =>
    cases h
    rfl
  | cons i is ih =>
    obtain ⟨⟨made, names₁⟩, hmade, h⟩ := bind_cases h
    obtain ⟨⟨more, names₂⟩, hmore, h⟩ := bind_cases h
    cases h
    rw [map_append, (mapNode_spec hmade).1, ih hmore, flatMap_cons]

/-- Mapping the rest of the nodes. The table is right for the nodes done, so what a node reads is found under the name
that its source has got; it is right for all nodes in the end. -/
theorem mapNodes_reads (done : List Nat) (hnames : ((done ++ is).map fun i => (g.node i).name).Nodup)
    (hfirst : ∀ pre i post, done ++ is = pre ++ i :: post → ∀ p ∈ g.sources i, p ∈ pre)
    (hdone : ∀ p ∈ done, names.find? (g.node p).name = some (g.node p).outputName)
    (h : mapNodes g names is = .ok (ls, names')) :
    (∀ l ∈ ls, ∀ x ∈ l.layer.inputs, x ∈ (done ++ is).flatMap fun i => (g.node i).layerNames) ∧
      ∀ p ∈ done ++ is, names'.find? (g.node p).name = some (g.node p).outputName := by
  induction is generalizing done names ls with
  | nil =>
    cases h
    exact ⟨nofun, by simpa using hdone⟩
  | cons i is ih =>
    obtain ⟨⟨made, names₁⟩, hmade, h⟩ := bind_cases h
    obtain ⟨⟨more, names₂⟩, hmore, h⟩ := bind_cases h
    cases h
    obtain ⟨-, rfl, hreads⟩ := mapNode_spec hmade
    have hsplit : done ++ i :: is = done ++ [i] ++ is := by simp
    -- the node's own entry is written, and those of the nodes before it stay
    have hdone' : ∀ p ∈ done ++ [i],
        (names.insert (g.node i).name (g.node i).outputName).find? (g.node p).name = some (g.node p).outputName := by
      intro p hp
      rw [Table.find?_insert]
      rcases mem_append.mp hp with hp | hp
      · have hne : (g.node i).name ≠ (g.node p).name := by
          intro he
          rw [map_append] at hnames
          exact (nodup_append.mp hnames).2.2 _ (mem_map_of_mem hp) _ (by simp) he.symm
        rw [if_neg hne, hdone p hp]
      · rw [mem_singleton.mp hp, if_pos rfl]
    rw [hsplit] at hnames hfirst ⊢
    obtain ⟨hrest, hall⟩ := ih (done ++ [i]) hnames hfirst hdone' hmore
    refine ⟨fun l hl x hx => ?_, hall⟩
    rcases mem_append.mp hl with hl | hl
    · rcases hreads l hl x hx with hx | ⟨p, hp, hfound⟩
      · exact mem_flatMap.mpr ⟨i, by simp, hx⟩
      · have hbefore : p ∈ done := hfirst done i is (by simp) p hp
        rw [hdone p hbefore, Option.some.injEq] at hfound
        exact mem_flatMap.mpr ⟨p, by simp [hbefore], hfound ▸ (g.node p).outputName_mem⟩
    · exact hrest l hl x hx

/-! ## Drafts -/

theorem names_ofLayers (name : String) (ls : List DraftLayer) :
    (Draft.ofLayers name ls).network.layers.map (·.name) = (Draft.ofLayers name ls).layers.keys := by
  simp only [Draft.network, Table.values, map_map]
  refine map_congr_left fun e he => ?_
  obtain ⟨l, -, rfl⟩ := mem_map.mp (Table.mem_of_mem_ofList he)
  rfl

theorem mem_names_ofLayers {x : String} :
    x ∈ (Draft.ofLayers name ls).network.layers.map (·.name) ↔ x ∈ ls.map (·.layer.name) := by
  rw [names_ofLayers, Draft.ofLayers, Table.mem_keys_ofList, map_map]
  rfl

theorem mem_layers_ofLayers {l : Layer} (h : l ∈ (Draft.ofLayers name ls).network.layers) : ∃ d ∈ ls, d.layer = l := by
  obtain ⟨d, hd, rfl⟩ := mem_map.mp h
  obtain ⟨e, he, rfl⟩ := mem_map.mp hd
  obtain ⟨m, hm, rfl⟩ := mem_map.mp (Table.mem_of_mem_ofList he)
  exact ⟨m, hm, rfl⟩

theorem toDraft_eq_ok {d : Draft} (h : toDraft g = .ok (d, names)) :
    ∃ start ls name, mapNodes g start g.members = .ok (ls, names) ∧ d = .ofLayers name ls := by
  obtain ⟨⟨ls, names₁⟩, hmap, h⟩ := bind_cases h
  obtain ⟨name, -, h⟩ := bind_cases h
  obtain ⟨rfl, rfl⟩ := Prod.mk.inj (Except.ok.inj h)
  exact ⟨_, ls, _, hmap, rfl⟩

/-- **References in a draft.** In a net with different names that lists every node after what it reads: if the net can
be mapped, every name that a layer reads is the name of a layer, and so is every name under which arrays are kept. -/
theorem draft_references_named {g : Net} {d : Draft} {names : LayerNames} (hnames : (g.nodes.map (·.name)).Nodup)
    (hfirst : g.SourcesFirst) (h : toDraft g = .ok (d, names)) :
    (∀ l ∈ d.network.layers, ∀ x ∈ l.inputs, x ∈ d.network.layers.map (·.name)) ∧
      ∃ arrays, layerArrays g names = .ok arrays ∧ ∀ k ∈ arrays.keys, k ∈ d.network.layers.map (·.name) := by
  obtain ⟨start, ls, name, hmap, rfl⟩ := toDraft_eq_ok h
  have hnodup : (g.members.map fun i => (g.node i).name).Nodup := by
    simpa [Net.nodes, Function.comp_def] using hnames
  obtain ⟨hreads, hfound⟩ := mapNodes_reads [] hnodup hfirst nofun hmap
  rw [nil_append, ← mapNodes_names hmap] at hreads
  refine ⟨fun l hl x hx => ?_, ?_⟩
  · obtain ⟨m, hm, rfl⟩ := mem_layers_ofLayers hl
    exact mem_names_ofLayers.mpr (hreads m hm x hx)
  · have hentries : (g.nodes.filter fun n => n.arrays.isSet).mapM (fun n => do
          return (← names.get n.name Fault.key, n.arrays)) =
        .ok ((g.nodes.filter fun n => n.arrays.isSet).map fun n => (n.outputName, n.arrays)) := by
      refine mapM_eq_map fun n hn => ?_
      obtain ⟨i, hi, rfl⟩ := mem_map.mp (mem_of_mem_filter hn)
      rw [Table.get, hfound i hi]
      rfl
    refine ⟨_, by rw [layerArrays, hentries]; rfl, fun k hk => ?_⟩
    rw [Table.mem_keys_ofList, map_map] at hk
    obtain ⟨n, hn, rfl⟩ := mem_map.mp hk
    obtain ⟨i, hi, rfl⟩ := mem_map.mp (mem_of_mem_filter hn)
    rw [mem_names_ofLayers, mapNodes_names hmap]
    exact mem_flatMap.mpr ⟨i, hi, (g.node i).outputName_mem⟩

def denseNet (last : String) : Net := {
  name := some "net"
  pool := #[
    { name := "x", kind := some "Data", children := [1], sizes := some { dims := [1, 2, 1, 1] } },
    { name := "f", kind := some "InnerProduct", spec := some { name := "f", type := .named "InnerProduct" },
      parents := [(0, 0)], children := [2], arrays := .listed [default], sizes := some { dims := [1, 0, 1, 1] } },
    { name := last, kind := some "ReLU", parents := [(1, 0)], sizes := some { dims := [1, 0, 1, 1] } }]
  members := [0, 1, 2] }

theorem draft_references_named_dense : ∃ d names, toDraft (denseNet "r") = .ok (d, names) ∧
    d.network.layers.map (fun l => (l.name, l.inputs)) =
      [("x", []), ("f_0", ["x"]), ("f_1", ["f_0"]), ("r", ["f_1"])] ∧
    ∃ arrays, layerArrays (denseNet "r") names = .ok arrays ∧ ∀ k ∈ arrays.keys, k ∈ d.network.layers.map (·.name) := by
  have hlayers : (toDraft (denseNet "r")).toOption.map (fun r => r.1.network.layers.map fun l => (l.name, l.inputs)) =
      some [("x", []), ("f_0", ["x"]), ("f_1", ["f_0"]), ("r", ["f_1"])] := by decide +kernel
  cases h : toDraft (denseNet "r") with
  | error e => simp [h, Except.toOption] at hlayers
  | ok r =>
    have hfirst : (denseNet "r").SourcesFirst := by
      intro pre i post hsplit
      have hsplit : [0, 1, 2] = pre ++ i :: post := hsplit
      rcases pre with _ | ⟨a, _ | ⟨b, _ | ⟨c, pre⟩⟩⟩
      · cases hsplit
        decide
      · cases hsplit
        decide
      · cases hsplit
        decide
      · simp at hsplit
    exact ⟨r.1, r.2, rfl, by simpa [h, Except.toOption] using hlayers,
      (draft_references_named (by decide) hfirst h).2⟩

/-! ## Layers of one name -/

def partNames (ns : List Node) : List String := (ns.filter Node.isDense).flatMap Node.layerNames

def plainNames (ns : List Node) : List String := (ns.filter (!·.isDense)).map (·.name)

def clashing (ns : List Node) : List Node := ns.filter fun m => !m.isDense && (partNames ns).contains m.name

section
variable {ns : List Node}

theorem layerNames_dense (h : n.isDense = true) : n.layerNames = [n.name ++ "_0", n.name ++ "_1"] :=
  if_pos h

theorem layerNames_plain (h : n.isDense = false) : n.layerNames = [n.name] := by
  simp [Node.layerNames, h]

theorem parts_ne (a b : String) : a ++ "_0" ≠ b ++ "_1" := by
  intro h
  have hlast := congrArg (fun s => s.toList.getLast?) h
  simp [String.toList_append] at hlast

theorem mem_partNames {x : String} :
    x ∈ partNames ns ↔ ∃ n ∈ ns, n.isDense = true ∧ (x = n.name ++ "_0" ∨ x = n.name ++ "_1") := by
  simp only [partNames, mem_flatMap, mem_filter, and_assoc]
  refine exists_congr fun n => and_congr_right fun _ => and_congr_right fun hd => ?_
  simp [layerNames_dense hd]

theorem clashing_eq_nil_iff : clashing ns = [] ↔ ∀ m ∈ ns, ∀ n ∈ ns, m.isDense = false → n.isDense = true →
    m.name ≠ n.name ++ "_0" ∧ m.name ≠ n.name ++ "_1" := by
  rw [clashing, filter_eq_nil_iff]
  refine forall₂_congr fun m _ => ?_
  simp only [Bool.and_eq_true, contains_eq_mem, mem_partNames]
  grind

theorem layerNames_perm (ns : List Node) : (ns.flatMap Node.layerNames).Perm (partNames ns ++ plainNames ns) := by
  have hplain : plainNames ns = (ns.filter (!·.isDense)).flatMap Node.layerNames := by
    rw [plainNames, map_eq_flatMap]
    refine flatMap_congr fun n hn => ?_
    rw [layerNames_plain (by simpa using (mem_filter.mp hn).2)]
  rw [hplain, partNames, ← flatMap_append]
  exact ((filter_append_perm Node.isDense ns).flatMap_right _).symm

theorem length_partNames : (partNames ns).length = 2 * (ns.filter Node.isDense).length := by
  induction ns with
  | nil => rfl
  | cons n ns ih =>
    unfold partNames at ih ⊢
    cases hd : n.isDense with
    | false => simpa [hd] using ih
    | true =>
      rw [filter_cons_of_pos hd, flatMap_cons, length_append, layerNames_dense hd]
      simp only [length_cons, length_nil]
      omega

variable (hnames : (ns.map (·.name)).Nodup)
include hnames

theorem nodup_plainNames : (plainNames ns).Nodup := hnames.sublist (filter_sublist.map _)

theorem nodup_partNames : (partNames ns).Nodup := by
  have hapart : (ns.filter Node.isDense).Pairwise fun m n => m.name ≠ n.name :=
    (pairwise_map.mp hnames).sublist filter_sublist
  refine nodup_flatMap.mpr ⟨fun n hn => ?_, hapart.imp_of_mem fun {m n} hm hn hne => ?_⟩
  · rw [layerNames_dense (mem_filter.mp hn).2]
    simp
  · intro x hx hx'
    rw [layerNames_dense (mem_filter.mp hm).2] at hx
    rw [layerNames_dense (mem_filter.mp hn).2] at hx'
    simp only [mem_cons, not_mem_nil, or_false] at hx hx'
    rcases hx with rfl | rfl <;> rcases hx' with h | h
    · exact hne (by simpa using h)
    · exact parts_ne _ _ h
    · exact parts_ne _ _ h.symm
    · exact hne (by simpa using h)

theorem nodup_layerNames (h : clashing ns = []) : (ns.flatMap Node.layerNames).Nodup := by
  refine (layerNames_perm ns).nodup_iff.mpr (nodup_append.mpr ⟨nodup_partNames hnames, nodup_plainNames hnames, ?_⟩)
  rintro x hx y hy rfl
  obtain ⟨m, hm, rfl⟩ := mem_map.mp hy
  obtain ⟨hm, hd⟩ := mem_filter.mp hm
  have hno := filter_eq_nil_iff.mp h m hm
  exact hno (by simpa [hx] using hd)

/-- How many layers are left when of layers of one name only one counts. -/
theorem length_keys_layerNames {ks : List String} (hks : ks.Nodup)
    (hmem : ∀ x, x ∈ ks ↔ x ∈ ns.flatMap Node.layerNames) :
    ks.length + (clashing ns).length = (ns.filter (!·.isDense)).length + 2 * (ns.filter Node.isDense).length := by
  have hclash : (clashing ns).length = ((plainNames ns).filter (· ∈ partNames ns)).length := by
    simp only [clashing, plainNames, filter_map, length_map, filter_filter]
    congr 2
    funext m
    simp [Bool.and_comm]
  have hperm : ks.Perm (partNames ns ++ (plainNames ns).filter (· ∉ partNames ns)) := by
    refine (perm_ext_iff_of_nodup hks (nodup_append.mpr ⟨nodup_partNames hnames,
      (nodup_plainNames hnames).filter _, ?_⟩)).mpr fun x => ?_
    · rintro x hx y hy rfl
      simp [hx] at hy
    · rw [hmem, (layerNames_perm ns).mem_iff]
      by_cases hx : x ∈ partNames ns <;> simp [hx]
  have hplain := length_eq_length_filter_add (l := plainNames ns) (· ∈ partNames ns)
  have hlength : (plainNames ns).length = (ns.filter (!·.isDense)).length := length_map ..
  rw [hperm.length_eq, length_append, length_partNames]
  simp only [decide_not] at hplain ⊢
  omega

end

/-- **Layers of a draft.** In a net with different names that can be mapped, the layers of the draft have different
names. Of layers of one name only one is left: each node that is no inner product and has the name of a layer of one
costs a layer. So the draft has one layer for each node, two for an inner product, exactly if there is no such node. -/
theorem draft_layers_complete_iff {g : Net} {d : Draft} {names : LayerNames} (hnames : (g.nodes.map (·.name)).Nodup)
    (h : toDraft g = .ok (d, names)) :
    (d.network.layers.map (·.name)).Nodup ∧
      d.network.layers.length + (clashing g.nodes).length =
        (g.nodes.filter (!·.isDense)).length + 2 * (g.nodes.filter Node.isDense).length ∧
      (d.network.layers.map (·.name) = g.nodes.flatMap Node.layerNames ↔
        ∀ m ∈ g.nodes, ∀ n ∈ g.nodes, m.isDense = false → n.isDense = true →
          m.name ≠ n.name ++ "_0" ∧ m.name ≠ n.name ++ "_1") := by
  obtain ⟨start, ls, name, hmap, rfl⟩ := toDraft_eq_ok h
  have hlisted : ls.map (·.layer.name) = g.nodes.flatMap Node.layerNames := by
    rw [mapNodes_names hmap, Net.nodes, flatMap_map]
  have hnodup : ((Draft.ofLayers name ls).network.layers.map (·.name)).Nodup := by
    rw [names_ofLayers]
    exact Table.nodup_keys_ofList _
  have hcount := length_keys_layerNames hnames hnodup fun x => by rw [mem_names_ofLayers, hlisted]
  rw [length_map] at hcount
  refine ⟨hnodup, hcount, ?_⟩
  rw [← clashing_eq_nil_iff]
  constructor
  · intro hall
    have hlength := congrArg length hall
    rw [(layerNames_perm g.nodes).length_eq, length_append, length_partNames, plainNames, length_map,
      length_map] at hlength
    exact length_eq_zero_iff.mp (by omega)
  · intro hno
    have hkeys : ((ls.map fun l => (l.layer.name, l)).map (·.1)).Nodup := by
      rw [map_map]
      exact (hlisted ▸ nodup_layerNames hnames hno :)
    rw [names_ofLayers, Table.keys, Draft.ofLayers, Table.entries_ofList hkeys, map_map, ← hlisted]
    rfl

theorem draft_layers_complete_iff_dense : ∃ d names, toDraft (denseNet "r") = .ok (d, names) ∧
    d.network.layers.map (·.name) = ["x", "f_0", "f_1", "r"] := by
  have hok : (toDraft (denseNet "r")).isOk = true := by decide +kernel
  cases h : toDraft (denseNet "r") with
  | error e => simp [h, Except.toBool] at hok
  | ok r =>
    have hcomplete := (draft_layers_complete_iff (by decide) h).2.2.mpr (by decide)
    exact ⟨r.1, r.2, rfl, hcomplete⟩

theorem layer_overwritten : ((denseNet "f_1").nodes.map (·.name)).Nodup ∧ ∃ d names,
    toDraft (denseNet "f_1") = .ok (d, names) ∧
    d.network.layers.map (fun l => (l.name, l.op)) = [("x", "DataInput"), ("f_0", "Flatten"), ("f_1", "Relu")] := by
  have hlayers : (toDraft (denseNet "f_1")).toOption.map (fun r => r.1.network.layers.map fun l => (l.name, l.op)) =
      some [("x", "DataInput"), ("f_0", "Flatten"), ("f_1", "Relu")] := by decide +kernel
  cases h : toDraft (denseNet "f_1") with
  | error e => simp [h, Except.toOption] at hlayers
  | ok r => exact ⟨by decide, r.1, r.2, rfl, by simpa [h, Except.toOption] using hlayers⟩

end NetBridge.Prototxt
