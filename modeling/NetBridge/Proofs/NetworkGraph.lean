import NetBridge.Network.LayerGraph
import NetBridge.Proofs.GraphOrder

/-!
# The graph of a network

The graph that is built from a network has an edge wherever one layer reads another, known to both
ends, and no vertex without an edge. Its order lists the layers that no cycle leads to.
-/

namespace NetBridge

open List

namespace Network

def names (n : Network) : List String := n.layers.map (·.name)

def inputsOf (n : Network) (name : String) : List String :=
  (n.layers.filter (·.name == name)).flatMap (·.inputs)

/-- Does some layer of the second name read a layer of the first? A layer does not read itself. -/
def Feeds (n : Network) (a b : String) : Prop :=
  a ≠ b ∧ a ∈ n.names ∧ b ∈ n.names ∧ ∃ l ∈ n.layers, l.name = b ∧ a ∈ l.inputs

end Network

variable {layers : List Layer} {n : Network} {a b m : String}

namespace LayerGraph

open Graph

/-! ## Edges asked for -/

theorem mem_edges : (a, b) ∈ edges layers ↔ ∃ l ∈ layers, l.name = b ∧ a ∈ l.inputs := by
  simp only [edges, mem_flatMap, mem_map, Prod.mk.injEq]
  constructor
  · rintro ⟨l, hl, i, hi, rfl, rfl⟩
    exact ⟨l, hl, rfl, hi⟩
  · rintro ⟨l, hl, rfl, ha⟩
    exact ⟨l, hl, a, ha, rfl, rfl⟩

theorem sources_of_edges (layers : List Layer) (p : String → Bool) (b : String) :
    ((edges layers).filter fun e => p e.1 ∧ e.2 = b).map (·.1) =
      ((layers.filter (·.name == b)).flatMap (·.inputs)).filter p := by
  induction layers with
  | nil => rfl
  | cons l layers ih =>
    have hcons : edges (l :: layers) = (l.inputs.map fun i => (i, l.name)) ++ edges layers := by
      simp [edges]
    rw [hcons, filter_append, map_append, ih]
    by_cases h : l.name = b
    · simp [h, filter_map, Function.comp_def]
    · simp [h]

/-! ## One vertex a name -/

variable {g : Graph Layer} {v : Vertex Layer}

theorem mem_keys_place : m ∈ (place g layers).vertices.keys ↔ m ∈ layers.map (·.name) ∨ m ∈ g.vertices.keys := by
  unfold place
  induction layers generalizing g with
  | nil => simp
  | cons l layers ih =>
    rw [foldl_cons, ih, mem_keys_add, map_cons, mem_cons]
    tauto

theorem nodup_keys_place (h : g.vertices.keys.Nodup) (layers : List Layer) : (place g layers).vertices.keys.Nodup := by
  induction layers generalizing g with
  | nil => exact h
  | cons l layers ih => exact ih (nodup_keys_add h l.name l)

theorem find?_place_of_not_mem (g : Graph Layer)
    (h : m ∉ layers.map (·.name)) : (place g layers).vertices.find? m = g.vertices.find? m := by
  unfold place
  induction layers generalizing g with
  | nil => rfl
  | cons l layers ih =>
    rw [map_cons, mem_cons, not_or] at h
    rw [foldl_cons, ih _ h.2, add, Table.find?_insert, if_neg (Ne.symm h.1)]

/-- The last layer of a name counts, and it starts without edges. -/
theorem find?_place_of_mem (g : Graph Layer) (h : m ∈ layers.map (·.name)) : ∃ l ∈ layers, l.name = m ∧
      (place g layers).vertices.find? m = some { name := m, item := l } := by
  induction layers generalizing g with
  | nil => cases h
  | cons l layers ih =>
    by_cases hm : m ∈ layers.map (·.name)
    · obtain ⟨l', hl', hn, hf⟩ := ih (g.add l.name l) hm
      exact ⟨l', .tail _ hl', hn, hf⟩
    · rw [map_cons, mem_cons] at h
      have hname : m = l.name := h.resolve_right hm
      subst hname
      refine ⟨l, .head _, rfl, ?_⟩
      have := find?_place_of_not_mem (g.add l.name l) hm
      simpa [place, add] using this

/-! ## Vertices without edges -/

section
variable {g : Graph Layer} (h : g.vertices.keys.Nodup)
include h

theorem find?_dropIsolated (m : String) :
    (dropIsolated g).vertices.find? m = g.vertices.find? m ∧
        (m ∈ g.vertices.keys → g.sourcesOf m ≠ [] ∨ g.targetsOf m ≠ []) ∨
      (dropIsolated g).vertices.find? m = none ∧ g.sourcesOf m = [] ∧ g.targetsOf m = [] := by
  have hf : (dropIsolated g).vertices.find? m =
      (g.vertices.find? m).filter fun v => !v.sources.isEmpty || !v.targets.isEmpty :=
    Table.find?_filter h _ m
  cases hm : g.vertices.find? m with
  | none => exact .inr ⟨by rw [hf, hm]; rfl, by simp [sourcesOf, hm], by simp [targetsOf, hm]⟩
  | some v =>
    rw [hm] at hf
    rw [hf, sourcesOf_of_find? hm, targetsOf_of_find? hm]
    by_cases hs : v.sources = []
    · by_cases ht : v.targets = []
      · exact .inr ⟨by simp [hs, ht], hs, ht⟩
      · exact .inl ⟨by simp [ht], fun _ => .inr ht⟩
    · exact .inl ⟨by simp [hs], fun _ => .inl hs⟩

theorem sourcesOf_dropIsolated (m : String) : (dropIsolated g).sourcesOf m = g.sourcesOf m := by
  rcases find?_dropIsolated h m with ⟨he, _⟩ | ⟨he, hs, _⟩
  · rw [sourcesOf, he, ← sourcesOf]
  · rw [hs, sourcesOf, he]; rfl

theorem targetsOf_dropIsolated (m : String) : (dropIsolated g).targetsOf m = g.targetsOf m := by
  rcases find?_dropIsolated h m with ⟨he, _⟩ | ⟨he, _, ht⟩
  · rw [targetsOf, he, ← targetsOf]
  · rw [ht, targetsOf, he]; rfl

theorem mem_keys_dropIsolated : m ∈ (dropIsolated g).vertices.keys ↔
    (∃ a, a ∈ g.sourcesOf m) ∨ ∃ b, b ∈ g.targetsOf m := by
  rcases find?_dropIsolated h m with ⟨he, hk⟩ | ⟨he, hs, ht⟩
  · rw [Table.mem_keys_iff, he, ← Table.mem_keys_iff]
    constructor
    · intro hm
      rcases hk hm with hs | ht
      · exact .inl (exists_mem_of_ne_nil _ hs)
      · exact .inr (exists_mem_of_ne_nil _ ht)
    · rintro (⟨a, ha⟩ | ⟨b, hb⟩)
      · exact mem_keys_of_mem_sourcesOf ha
      · exact mem_keys_of_mem_targetsOf hb
  · simp [Table.mem_keys_iff, he, hs, ht]

end

/-! ## The vertices and edges of a network -/

section
variable (n : Network) {g : Graph Layer} (hk : ∀ m ∈ g.vertices.keys, m ∈ n.names)
  (hn : g.vertices.keys.Nodup)

include hk in
theorem sourcesOf_place (m : String) : (place g n.layers).sourcesOf m = [] := by
  by_cases hm : m ∈ n.layers.map (·.name)
  · obtain ⟨l, _, _, hf⟩ := find?_place_of_mem g hm
    rw [sourcesOf_of_find? hf]
  · rw [sourcesOf, find?_place_of_not_mem g hm, Table.find?_eq_none_iff.mpr (mt (hk m) hm)]
    rfl

include hk in
theorem targetsOf_place (m : String) : (place g n.layers).targetsOf m = [] := by
  by_cases hm : m ∈ n.layers.map (·.name)
  · obtain ⟨l, _, _, hf⟩ := find?_place_of_mem g hm
    rw [targetsOf_of_find? hf]
  · rw [targetsOf, find?_place_of_not_mem g hm, Table.find?_eq_none_iff.mpr (mt (hk m) hm)]
    rfl

include hk in
theorem joins_place : (place g n.layers).Joins a b ↔ a ≠ b ∧ a ∈ n.names ∧ b ∈ n.names := by
  have hkeys : ∀ m, m ∈ (place g n.layers).vertices.keys ↔ m ∈ n.names := fun m =>
    mem_keys_place.trans ⟨fun h => h.elim id (hk m), Or.inl⟩
  rw [Joins, hkeys, hkeys]

include hn in
theorem nodup_keys_connected :
    ((place g n.layers).connectAll (edges n.layers)).1.vertices.keys.Nodup := by
  rw [keys_connectAll]
  exact nodup_keys_place hn _

include hn in
theorem nodup_keys_wire : (wire g n.layers).1.vertices.keys.Nodup :=
  Table.nodup_keys_filter (nodup_keys_connected n hn) _

include hk hn

theorem mem_sourcesOf_wire : a ∈ (wire g n.layers).1.sourcesOf b ↔ n.Feeds a b := by
  have hd := sourcesOf_dropIsolated (nodup_keys_connected n hn) b
  rw [show (wire g n.layers).1.sourcesOf b = _ from hd, mem_sourcesOf_connectAll, sourcesOf_place n hk,
    mem_edges, joins_place n hk, Network.Feeds]
  tauto

theorem mem_targetsOf_wire : b ∈ (wire g n.layers).1.targetsOf a ↔ n.Feeds a b := by
  have hd := targetsOf_dropIsolated (nodup_keys_connected n hn) a
  rw [show (wire g n.layers).1.targetsOf a = _ from hd, mem_targetsOf_connectAll, targetsOf_place n hk,
    mem_edges, joins_place n hk, Network.Feeds]
  tauto

theorem sourcesOf_wire (b : String) : (wire g n.layers).1.sourcesOf b =
    ((n.inputsOf b).filter fun a => a ≠ b ∧ a ∈ n.names).eraseDups := by
  have hd := sourcesOf_dropIsolated (nodup_keys_connected n hn) b
  rw [show (wire g n.layers).1.sourcesOf b = _ from hd, sourcesOf_connectAll, sourcesOf_place n hk,
    foldl_addNew, Network.inputsOf, ← sources_of_edges]
  simp only [nil_append, contains_nil, Bool.not_false, filter_true]
  congr 2
  apply filter_congr
  rintro ⟨a, c⟩ he
  obtain ⟨l, hl, hc, _⟩ := mem_edges.mp he
  have hname : c ∈ n.names := mem_map.mpr ⟨l, hl, hc⟩
  simp only [joins_place n hk, hname, and_true, decide_eq_true_eq, decide_eq_decide]
  constructor <;> rintro ⟨h, rfl⟩ <;> exact ⟨h, rfl⟩

theorem mirrored_wire : (wire g n.layers).1.Mirrored where
  keys_nodup := nodup_keys_wire n hn
  targets_nodup a := by
    rw [show (wire g n.layers).1.targetsOf a = _ from
      targetsOf_dropIsolated (nodup_keys_connected n hn) a]
    exact nodup_targetsOf_connectAll (by rw [targetsOf_place n hk]; exact nodup_nil)
  backed a t h := (mem_sourcesOf_wire n hk hn).mpr ((mem_targetsOf_wire n hk hn).mp h)
  sources_nodup t := by
    rw [show (wire g n.layers).1.sourcesOf t = _ from
      sourcesOf_dropIsolated (nodup_keys_connected n hn) t]
    exact nodup_sourcesOf_connectAll (by rw [sourcesOf_place n hk]; exact nodup_nil)
  mirrored a t h := (mem_targetsOf_wire n hk hn).mpr ((mem_sourcesOf_wire n hk hn).mp h)

theorem mem_keys_wire : m ∈ (wire g n.layers).1.vertices.keys ↔ ∃ k, n.Feeds m k ∨ n.Feeds k m := by
  have hc := nodup_keys_connected n hn
  have hd := mem_keys_dropIsolated hc (m := m)
  rw [← sourcesOf_dropIsolated hc, ← targetsOf_dropIsolated hc] at hd
  rw [exists_or, or_comm]
  refine hd.trans (or_congr ?_ ?_)
  · exact exists_congr fun _ => mem_sourcesOf_wire n hk hn
  · exact exists_congr fun _ => mem_targetsOf_wire n hk hn

end

/-! ## Building -/

theorem vertices_build (g : LayerGraph) :
    (build g).2.1.graph.vertices = (wire g.graph g.network.layers).1.vertices := by
  simp only [build]
  split
  · split <;> rfl
  · rfl

theorem network_build (g : LayerGraph) : (build g).2.1.network = g.network := by
  simp only [build]
  split
  · split <;> rfl
  · rfl

def rebuilt (n : Network) : Nat → LayerGraph
  | 0 => { network := n }
  | k + 1 => (rebuilt n k).build.2.1

theorem network_rebuilt (n : Network) (k : Nat) : (rebuilt n k).network = n := by
  induction k with
  | zero => rfl
  | succ k ih => rw [rebuilt, network_build, ih]

theorem keys_rebuilt (n : Network) (k : Nat) : (rebuilt n k).graph.vertices.keys.Nodup ∧
    ∀ m ∈ (rebuilt n k).graph.vertices.keys, m ∈ n.names := by
  induction k with
  | zero => exact ⟨nodup_nil, fun m hm => by cases hm⟩
  | succ k ih =>
    rw [rebuilt, vertices_build, network_rebuilt]
    refine ⟨nodup_keys_wire n ih.1, fun m hm => ?_⟩
    obtain ⟨x, hx | hx⟩ := (mem_keys_wire n ih.2 ih.1).mp hm
    · exact hx.2.1
    · exact hx.2.2.1

theorem wire_rebuilt (n : Network) (k : Nat) : (rebuilt n (k + 1)).graph.vertices =
    (wire (rebuilt n k).graph n.layers).1.vertices := by
  rw [rebuilt, vertices_build, network_rebuilt]

/-- **Edges of a built graph.** After any number of builds both ends of an edge know it, and the edges
are those that the layers ask for between two different layer names. -/
theorem build_edges_agree (n : Network) (k : Nat) :
    (∀ a b, b ∈ (rebuilt n (k + 1)).graph.targetsOf a ↔ a ∈ (rebuilt n (k + 1)).graph.sourcesOf b) ∧
    (∀ a b, a ∈ (rebuilt n (k + 1)).graph.sourcesOf b ↔ n.Feeds a b) ∧
    (∀ a, ((rebuilt n (k + 1)).graph.sourcesOf a).Nodup ∧ ((rebuilt n (k + 1)).graph.targetsOf a).Nodup) ∧
    (∀ b, (rebuilt n (k + 1)).graph.sourcesOf b =
      ((n.inputsOf b).filter fun a => a ≠ b ∧ a ∈ n.names).eraseDups) ∧
    (∀ m, m ∈ (rebuilt n (k + 1)).graph.vertices.keys ↔ ∃ x, n.Feeds m x ∨ n.Feeds x m) ∧
    (∀ a b, a ∈ (rebuilt n (k + 1)).graph.sourcesOf b →
      a ∈ (rebuilt n (k + 1)).graph.vertices.keys ∧ b ∈ (rebuilt n (k + 1)).graph.vertices.keys) := by
  obtain ⟨hn, hk⟩ := keys_rebuilt n k
  have hs : (rebuilt n (k + 1)).graph.sourcesOf = (wire (rebuilt n k).graph n.layers).1.sourcesOf := by
    funext m; simp only [sourcesOf, wire_rebuilt]
  have ht : (rebuilt n (k + 1)).graph.targetsOf = (wire (rebuilt n k).graph n.layers).1.targetsOf := by
    funext m; simp only [targetsOf, wire_rebuilt]
  have hm := mirrored_wire n hk hn
  rw [hs, ht, wire_rebuilt]
  refine ⟨fun a b => ⟨hm.backed a b, hm.mirrored a b⟩, fun a b => mem_sourcesOf_wire n hk hn,
    fun a => ⟨hm.sources_nodup a, hm.targets_nodup a⟩, sourcesOf_wire n hk hn,
    fun m => mem_keys_wire n hk hn, fun a b h => ⟨mem_keys_of_feeds hm h, mem_keys_of_mem_sourcesOf h⟩⟩

def graphOf (n : Network) : Graph Layer := (build { network := n }).2.1.graph

theorem mirrored_graphOf (n : Network) : (graphOf n).Mirrored :=
  (mirrored_wire n (keys_rebuilt n 0).2 (keys_rebuilt n 0).1).congr (vertices_build _).symm

theorem find?_graphOf (h : (graphOf n).vertices.find? m = some v) :
    v.item ∈ n.layers ∧ v.item.name = m ∧ v.name = m ∧ v.outputName = m := by
  have hempty : ({} : Graph Layer).vertices.keys.Nodup := nodup_nil
  rcases find?_dropIsolated (nodup_keys_connected n hempty) m with ⟨he, _⟩ | ⟨he, _, _⟩
  · have hb : ((place {} n.layers).connectAll (edges n.layers)).1.bareOf m = some v.bare := by
      rw [bareOf, ← he]
      exact congrArg (Option.map Vertex.bare) h
    rw [bareOf_connectAll] at hb
    by_cases hm : m ∈ n.layers.map (·.name)
    · obtain ⟨l, hl, hn, hf⟩ := find?_place_of_mem {} hm
      rw [bareOf, hf] at hb
      have hv : { name := m, item := l } = v.bare := Option.some.inj hb
      refine ⟨?_, ?_, (congrArg Vertex.name hv).symm, (congrArg Vertex.outputName hv).symm⟩
      · rw [show v.item = l from (congrArg Vertex.item hv).symm]
        exact hl
      · rw [show v.item = l from (congrArg Vertex.item hv).symm]
        exact hn
    · rw [bareOf, find?_place_of_not_mem {} hm] at hb
      cases hb
  · cases he.symm.trans h

theorem mem_keys_graphOf : m ∈ (graphOf n).vertices.keys ↔ ∃ k, n.Feeds m k ∨ n.Feeds k m :=
  mem_keys_wire n (keys_rebuilt n 0).2 (keys_rebuilt n 0).1

theorem sourcesOf_graphOf (n : Network) (b : String) :
    (graphOf n).sourcesOf b = (wire {} n.layers).1.sourcesOf b := by
  simp only [sourcesOf, graphOf, vertices_build]

theorem feeds_graphOf (n : Network) : (graphOf n).Feeds = n.Feeds := by
  funext a b
  exact propext (mem_sourcesOf_wire n (keys_rebuilt n 0).2 (keys_rebuilt n 0).1)

theorem inputs_wire (layers : List Layer) : (wire {} layers).1.inputs = [] := by
  have hp : (place {} layers).inputs = [] := by
    exact foldlRecOn layers _ (motive := fun g : Graph Layer => g.inputs = []) rfl fun _ h _ _ => h
  rw [show (wire {} layers).1.inputs = _ from inputs_connectAll _ _, hp]

theorem order_graphOf (n : Network) : (graphOf n).order = (graphOf n).orderOf (graphOf n).sourceless := by
  rw [graphOf, orderOf_congr (vertices_build { network := n })]
  exact order_finish (inputs_wire n.layers)

theorem named_graphOf (h : (graphOf n).vertices.find? m = some v) : v.name = m ∧ v.item.name = m := by
  obtain ⟨-, hitem, hname, -⟩ := find?_graphOf h
  exact ⟨hname, hitem⟩

theorem renamed_graphOf (n : Network) : (graphOf n).Renamed id (graphOf n) :=
  renamed_id fun _ _ h => (find?_graphOf h).2.2.2

theorem nodup_order_graphOf (n : Network) : (graphOf n).order.Nodup := by
  rw [order_graphOf]
  exact orderOf_nodup (mirrored_graphOf n).toWired

theorem preceded_order_graphOf (n : Network) : (graphOf n).Preceded (graphOf n).order := by
  rw [order_graphOf]
  exact orderOf_preceded (mirrored_graphOf n).toWired

theorem mem_keys_of_order_graphOf (h : m ∈ (graphOf n).order) : m ∈ (graphOf n).vertices.keys := by
  rw [order_graphOf] at h
  exact mem_keys_of_mem_orderOf (mirrored_graphOf n).toWired h

theorem mem_order_of_acyclic (h : ∀ a, ¬Relation.TransGen n.Feeds a a) :
    m ∈ (graphOf n).order ↔ m ∈ (graphOf n).vertices.keys := by
  rw [← feeds_graphOf] at h
  rw [order_graphOf]
  exact ((orderOf_perm_iff (mirrored_graphOf n)).mpr h).mem_iff

theorem acyclic_of_order (h : (graphOf n).order.Perm (graphOf n).vertices.keys) :
    ∀ a, ¬Relation.TransGen n.Feeds a a := by
  rw [order_graphOf, orderOf_perm_iff (mirrored_graphOf n)] at h
  rwa [← feeds_graphOf]

/-- **The order of a built graph.** The first build succeeds. The walk behind the order ends by itself,
looks up only names that have a vertex, and lists each vertex without a cycle behind it once, after its
sources. -/
theorem first_build_order (n : Network) :
    (build { network := n }).1 = .ok () ∧
    (∀ k, orderFrom (graphOf n) ((graphOf n).sourceless.length + (graphOf n).vertices.size + k)
      (graphOf n).allPending (graphOf n).sourceless = (graphOf n).order) ∧
    (∀ m ∈ (graphOf n).order, m ∈ (graphOf n).vertices.keys ∧
      ∀ t ∈ (graphOf n).targetsOf m, t ∈ (graphOf n).vertices.keys) ∧
    (graphOf n).order.Nodup ∧
    (graphOf n).Preceded (graphOf n).order ∧
    (∀ m, m ∈ (graphOf n).order ↔ m ∈ (graphOf n).vertices.keys ∧ (graphOf n).CycleFree m) ∧
    ((graphOf n).order.Perm (graphOf n).vertices.keys ↔
      ∀ a, ¬ Relation.TransGen (graphOf n).Feeds a a) := by
  have hm := mirrored_graphOf n
  rw [order_graphOf]
  refine ⟨rfl, orderFrom_start_add hm.toWired, fun m h => ⟨mem_keys_of_mem_orderOf hm.toWired h, ?_⟩,
    orderOf_nodup hm.toWired, orderOf_preceded hm.toWired, fun m => mem_orderOf_iff_cycleFree hm,
    orderOf_perm_iff hm⟩
  exact fun t ht => mem_keys_of_mem_sourcesOf (hm.backed m t ht)

/-- A network with a name used twice, a layer that reads itself, a name that no layer has, and a cycle
of two layers. -/
def tangled : Network := { layers := [
  { name := "x", inputs := ["ghost"] },
  { name := "a", inputs := ["x", "a"] },
  { name := "b", inputs := ["a", "c"] },
  { name := "c", inputs := ["b"] },
  { name := "d", inputs := ["a", "a"] },
  { name := "a", inputs := ["d", "x"] }] }

theorem build_edges_agree_tangled : (rebuilt tangled 2).graph.sourcesOf "a" = ["x", "d"] ∧
    "d" ∈ (rebuilt tangled 2).graph.vertices.keys ∧ "a" ∈ (rebuilt tangled 2).graph.targetsOf "d" := by
  have h := build_edges_agree tangled 1
  have hd : "d" ∈ (rebuilt tangled 2).graph.sourcesOf "a" := by decide
  exact ⟨by decide, (h.2.2.2.2.2 "d" "a" hd).1, (h.1 "d" "a").mpr hd⟩

theorem first_build_order_tangled : "x" ∈ (graphOf tangled).vertices.keys ∧
    (∀ t ∈ (graphOf tangled).targetsOf "x", t ∈ (graphOf tangled).vertices.keys) ∧
    ¬ (graphOf tangled).CycleFree "b" := by
  have h := first_build_order tangled
  refine ⟨(h.2.2.1 "x" (by decide)).1, (h.2.2.1 "x" (by decide)).2, fun hb => ?_⟩
  exact absurd ((h.2.2.2.2.2.1 "b").mpr ⟨by decide, hb⟩) (by decide)

end LayerGraph

end NetBridge
