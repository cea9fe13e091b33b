import NetBridge.Source.TensorFlow
import NetBridge.Proofs.GraphOrder

/-!
# The order in which nodes are listed

The graph of a list of nodes is put together node by node, and the edges from a node that is replaced are lost to it.
So an edge is there in both directions exactly if its source is listed before its target, and a node gets into the
order exactly if that is so all the way behind it.
-/

namespace NetBridge.Source.TensorFlow

open Relation Graph List

abbrev namesOf (nodes : List Layer) : List String := nodes.map (·.name)

def Reads (nodes : List Layer) (a b : String) : Prop := a ≠ b ∧ ∃ n ∈ nodes, n.name = b ∧ a ∈ n.inputs

def Before (nodes : List Layer) (a b : String) : Prop := (namesOf nodes).idxOf a < (namesOf nodes).idxOf b

structure Closed (nodes : List Layer) : Prop where
  nodup : (namesOf nodes).Nodup
  inputs : ∀ n ∈ nodes, ∀ a ∈ n.inputs, a ∈ namesOf nodes

/-! ## One node's turn -/

def turn (g : Graph Layer) (n : Layer) : Graph Layer :=
  ((g.add n.name n).connectAll (n.inputs.map fun a => (a, n.name))).1

def unread (nodes : List Layer) : Graph Layer := nodes.foldl (fun g n => g.add n.name n) {}

variable {p : Graph Layer × List String} {nodes : List Layer}

theorem wire_eq {source : String} (name : String) (h : source ∈ p.1.vertices.keys) :
    (wire name p source).1 = (p.1.connect source name).1 := by
  simp [wire, has_iff.mpr h]

theorem foldl_wire {name : String} {sources : List String} (h : ∀ a ∈ sources, a ∈ p.1.vertices.keys) :
    (sources.foldl (wire name) p).1 = (p.1.connectAll (sources.map fun a => (a, name))).1 := by
  induction sources generalizing p with
  | nil => rfl
  | cons a sources ih =>
    have ha := wire_eq name (h a (.head _))
    rw [map_cons, connectAll_cons, ← ha]
    refine ih fun b hb => ?_
    rw [ha, keys_connect]
    exact h b (.tail _ hb)

variable {m : String}

theorem mem_keys_turn {g : Graph Layer} {n : Layer} :
    m ∈ (turn g n).vertices.keys ↔ m = n.name ∨ m ∈ g.vertices.keys := by
  rw [turn, keys_connectAll, mem_keys_add]

theorem foldl_turn (h : ∀ n ∈ nodes, ∀ a ∈ n.inputs, a ∈ p.1.vertices.keys) :
    (nodes.foldl (fun g n => n.inputs.foldl (wire n.name) (g.1.add n.name n, g.2)) p).1 = nodes.foldl turn p.1 := by
  induction nodes generalizing p with
  | nil => rfl
  | cons n nodes ih =>
    have hn : (n.inputs.foldl (wire n.name) (p.1.add n.name n, p.2)).1 = turn p.1 n :=
      foldl_wire fun a ha => mem_keys_add.mpr (.inr (h n (.head _) a ha))
    rw [foldl_cons, foldl_cons, ih, hn]
    intro m hm a ha
    rw [hn, mem_keys_turn]
    exact .inr (h m (.tail _ hm) a ha)

theorem mem_keys_unread : m ∈ (unread nodes).vertices.keys ↔ m ∈ namesOf nodes := by
  suffices h : ∀ g : Graph Layer, m ∈ (nodes.foldl (fun g n => g.add n.name n) g).vertices.keys ↔
      m ∈ namesOf nodes ∨ m ∈ g.vertices.keys by
    rw [unread, h]
    exact or_iff_left fun hm => by cases hm
  induction nodes with
  | nil => simp [namesOf]
  | cons n nodes ih =>
    intro g
    have hcons : m ∈ namesOf (n :: nodes) ↔ m = n.name ∨ m ∈ namesOf nodes := by simp [namesOf]
    rw [foldl_cons, ih, mem_keys_add]
    tauto

theorem graphOf_eq (h : Closed nodes) : (graphOf nodes).1 = (nodes.foldl turn (unread nodes)).finish := by
  have hkeys : ∀ n ∈ nodes, ∀ a ∈ n.inputs, a ∈ (unread nodes).vertices.keys := fun n hn a ha =>
    mem_keys_unread.mpr (h.inputs n hn a ha)
  have hrun := foldl_turn (p := (unread nodes, [])) hkeys
  rw [← hrun]
  rfl

section
variable {n : Layer} {k : Nat} {g : Graph Layer} {a b : String}

theorem Reads.mem (h : Reads nodes a b) : b ∈ namesOf nodes := by
  obtain ⟨-, n, hn, rfl, -⟩ := h
  exact mem_map_of_mem hn

theorem Closed.mem (h : Closed nodes) (hr : Reads nodes a b) : a ∈ namesOf nodes := by
  obtain ⟨-, n, hn, -, ha⟩ := hr
  exact h.inputs n hn a ha

theorem Closed.idxOf (h : Closed nodes) (hn : nodes[k]? = some n) : (namesOf nodes).idxOf n.name = k := by
  obtain ⟨hk, rfl⟩ := List.getElem?_eq_some_iff.mp hn
  have := h.nodup.idxOf_getElem k (by simpa using hk)
  simpa using this

theorem Closed.idxOf_ne (h : Closed nodes) (hn : nodes[k]? = some n) (ha : a ∈ namesOf nodes)
    (hne : a ≠ n.name) : (namesOf nodes).idxOf a ≠ k := by
  intro e
  rw [← h.idxOf hn] at e
  exact hne ((idxOf_inj ha).mp e)

theorem Closed.mem_edges (h : Closed nodes) (hn : n ∈ nodes) (hkeys : ∀ m ∈ namesOf nodes, m ∈ g.vertices.keys) :
    (a, b) ∈ (n.inputs.map fun c => (c, n.name)) ∧ (g.add n.name n).Joins a b ↔
      b = n.name ∧ Reads nodes a b := by
  constructor
  · rintro ⟨hmem, hj⟩
    obtain ⟨c, hc, e⟩ := mem_map.mp hmem
    obtain ⟨rfl, rfl⟩ := Prod.mk.inj e
    exact ⟨rfl, hj.1, n, hn, rfl, hc⟩
  · rintro ⟨rfl, hr⟩
    have ha : a ∈ (g.add n.name n).vertices.keys := mem_keys_add.mpr (.inr (hkeys a (h.mem hr)))
    obtain ⟨hne, m, hm, hname, hin⟩ := hr
    obtain rfl := inj_on_of_nodup_map h.nodup hm hn hname
    exact ⟨mem_map_of_mem hin, hne, ha, mem_keys_add.mpr (.inl rfl)⟩

/-! ## The turns of all nodes -/

/-- The graph after the turns of the first `k` nodes. A node knows what it reads from its own turn on. It
knows a reader that has had its turn, until its own turn comes and it forgets all readers so far. -/
structure Turned (nodes : List Layer) (k : Nat) (g : Graph Layer) : Prop where
  keys_nodup : g.vertices.keys.Nodup
  inputs_nil : g.inputs = []
  mem_keys : ∀ m, m ∈ g.vertices.keys ↔ m ∈ namesOf nodes
  sources_nodup : ∀ m, (g.sourcesOf m).Nodup
  targets_nodup : ∀ m, (g.targetsOf m).Nodup
  sources : ∀ a b, a ∈ g.sourcesOf b ↔ (namesOf nodes).idxOf b < k ∧ Reads nodes a b
  targets : ∀ a b, b ∈ g.targetsOf a ↔ (namesOf nodes).idxOf b < k ∧ Reads nodes a b ∧
    ((namesOf nodes).idxOf a < k → Before nodes a b)

theorem Turned.turn (h : Closed nodes) (ht : Turned nodes k g) (hn : nodes[k]? = some n) :
    Turned nodes (k + 1) (turn g n) := by
  have hmem : n ∈ nodes := mem_of_getElem? hn
  have hpos := h.idxOf hn
  have hedge : ∀ a b, (a, b) ∈ (n.inputs.map fun c => (c, n.name)) ∧ (g.add n.name n).Joins a b ↔
      b = n.name ∧ Reads nodes a b := fun a b => h.mem_edges hmem fun m hm => (ht.mem_keys m).mpr hm
  refine ⟨?_, ?_, fun m => ?_, fun m => ?_, fun m => ?_, fun a b => ?_, fun a b => ?_⟩
  · rw [TensorFlow.turn, keys_connectAll]
    exact nodup_keys_add ht.keys_nodup n.name n
  · rw [TensorFlow.turn, inputs_connectAll]
    exact ht.inputs_nil
  · rw [mem_keys_turn, ht.mem_keys m]
    exact or_iff_right_of_imp fun e => e ▸ mem_map_of_mem hmem
  · refine nodup_sourcesOf_connectAll ?_
    rw [sourcesOf_add]
    split
    · exact nodup_nil
    · exact ht.sources_nodup m
  · refine nodup_targetsOf_connectAll ?_
    rw [targetsOf_add]
    split
    · exact nodup_nil
    · exact ht.targets_nodup m
  · rw [TensorFlow.turn, mem_sourcesOf_connectAll, hedge, sourcesOf_add]
    by_cases hb : b = n.name
    · subst hb
      simp [hpos]
    · rw [if_neg (Ne.symm hb), ht.sources]
      have hne : Reads nodes a b → (namesOf nodes).idxOf b ≠ k := fun hr => h.idxOf_ne hn hr.mem hb
      grind
  · rw [TensorFlow.turn, mem_targetsOf_connectAll, targetsOf_add]
    by_cases ha : a = n.name
    · -- the node forgets its readers so far, which are those listed before it
      subst ha
      have hself : Reads nodes n.name b → b ≠ n.name := fun hr => hr.1.symm
      unfold Before
      grind
    · rw [if_neg (Ne.symm ha), ht.targets]
      have hne : Reads nodes a b → (namesOf nodes).idxOf a ≠ k := fun hr => h.idxOf_ne hn (h.mem hr) ha
      have hne' : Reads nodes a b → b ≠ n.name → (namesOf nodes).idxOf b ≠ k := fun hr => h.idxOf_ne hn hr.mem
      unfold Before
      grind

theorem turned_unread : Turned nodes 0 (unread nodes) := by
  have hgrown : (unread nodes).Grown [] :=
    foldlRecOn nodes _ (motive := fun g : Graph Layer => g.Grown []) .empty
      fun g hg n _ => hg.add not_mem_nil _
  have hsources : ∀ m, (unread nodes).sourcesOf m = [] := by
    refine foldlRecOn nodes _ (motive := fun g : Graph Layer => ∀ m, g.sourcesOf m = [])
      (fun m => rfl) fun g hg n _ m => ?_
    rw [sourcesOf_add]
    split
    · rfl
    · exact hg m
  have htargets : ∀ a b, b ∉ (unread nodes).targetsOf a := fun a b hb => by
    cases (hgrown.backed a b hb).1
  refine ⟨hgrown.keys_nodup, hgrown.inputs_nil, fun m => mem_keys_unread, fun m => ?_, hgrown.targets_nodup,
    fun a b => ?_, fun a b => ?_⟩
  · rw [hsources]
    exact nodup_nil
  · simp [hsources]
  · simp [htargets]

theorem turned_all (h : Closed nodes) : Turned nodes nodes.length (nodes.foldl turn (unread nodes)) := by
  -- along the list, split into the nodes that have had their turn and the others
  suffices hall : ∀ todo done g, nodes = done ++ todo → Turned nodes done.length g →
      Turned nodes nodes.length (todo.foldl turn g) from hall nodes [] _ rfl turned_unread
  intro todo
  induction todo with
  | nil =>
    intro done g hsplit ht
    obtain rfl : nodes = done := by rw [hsplit, append_nil]
    exact ht
  | cons n todo ih =>
    intro done g hsplit ht
    have hn : nodes[done.length]? = some n := by rw [hsplit]; simp
    refine ih (done ++ [n]) (turn g n) (by rw [hsplit]; simp) ?_
    rw [length_append]
    exact ht.turn h hn

/-! ## The finished graph -/

theorem Turned.wired (ht : Turned nodes k g) : g.Wired := by
  refine ⟨ht.keys_nodup, ht.targets_nodup, fun a b hb => ?_⟩
  obtain ⟨hlt, hr, -⟩ := (ht.targets a b).mp hb
  exact (ht.sources a b).mpr ⟨hlt, hr⟩

theorem Reads.idxOf_lt (h : Reads nodes a b) : (namesOf nodes).idxOf b < nodes.length := by
  simpa [namesOf] using idxOf_lt_length_of_mem h.mem

theorem mem_sourcesOf_graphOf (h : Closed nodes) : a ∈ (graphOf nodes).1.sourcesOf b ↔ Reads nodes a b := by
  rw [graphOf_eq h]
  exact ((turned_all h).sources a b).trans (and_iff_right_of_imp Reads.idxOf_lt)

theorem mem_targetsOf_graphOf (h : Closed nodes) :
    b ∈ (graphOf nodes).1.targetsOf a ↔ Reads nodes a b ∧ Before nodes a b := by
  rw [graphOf_eq h]
  refine ((turned_all h).targets a b).trans ?_
  constructor
  · rintro ⟨-, hr, hbefore⟩
    exact ⟨hr, hbefore (by simpa [namesOf] using idxOf_lt_length_of_mem (h.mem hr))⟩
  · rintro ⟨hr, hbefore⟩
    exact ⟨hr.idxOf_lt, hr, fun _ => hbefore⟩

theorem mem_order_graphOf (h : Closed nodes) : b ∈ (graphOf nodes).1.order ↔ b ∈ namesOf nodes ∧
    ∀ a, Reads nodes a b → a ∈ (graphOf nodes).1.order ∧ Before nodes a b := by
  have ht := turned_all h
  have hsources : ∀ a, a ∈ (graphOf nodes).1.sourcesOf b ↔ Reads nodes a b := fun a => mem_sourcesOf_graphOf h
  have htargets : ∀ a, b ∈ (graphOf nodes).1.targetsOf a ↔ Reads nodes a b ∧ Before nodes a b :=
    fun a => mem_targetsOf_graphOf h
  rw [graphOf_eq h] at hsources htargets ⊢
  rw [order_finish ht.inputs_nil, mem_orderOf_wired ht.wired (ht.sources_nodup b), ht.mem_keys]
  refine and_congr_right fun _ => forall_congr' fun a => ⟨fun hall hr => ?_, fun hall hs => ?_⟩
  · obtain ⟨ha, hb⟩ := hall ((hsources a).mpr hr)
    exact ⟨ha, ((htargets a).mp hb).2⟩
  · have hr := (hsources a).mp hs
    obtain ⟨ha, hb⟩ := hall hr
    exact ⟨ha, (htargets a).mpr ⟨hr, hb⟩⟩

def Ordered (nodes : List Layer) (b : String) : Prop :=
  ∀ c, ReflTransGen (Reads nodes) c b → ∀ a, Reads nodes a c → Before nodes a c

theorem mem_order_of_ordered (h : Closed nodes) (hb : b ∈ namesOf nodes) (ho : Ordered nodes b) :
    b ∈ (graphOf nodes).1.order := by
  induction hk : (namesOf nodes).idxOf b using Nat.strong_induction_on generalizing b with
  | _ k ih =>
    subst hk
    refine (mem_order_graphOf h).mpr ⟨hb, fun a hr => ?_⟩
    have hbefore := ho b .refl a hr
    refine ⟨ih _ hbefore (h.mem hr) (fun c hc => ho c (hc.tail hr)) rfl, hbefore⟩

theorem ordered_of_mem_order (h : Closed nodes) (hb : b ∈ (graphOf nodes).1.order) : Ordered nodes b := by
  intro c hc
  have hmem : c ∈ (graphOf nodes).1.order := by
    induction hc using ReflTransGen.head_induction_on with
    | refl => exact hb
    | head hr _ ih => exact (((mem_order_graphOf h).mp ih).2 _ hr).1
  exact fun a hr => (((mem_order_graphOf h).mp hmem).2 a hr).2

end

/-- A node always knows what it reads, and is known to it if it is listed later. A node comes into the order
of the graph exactly if all nodes behind it are listed before their readers. -/
theorem edges_follow_listing (nodes : List Layer) (hnodup : (nodes.map (·.name)).Nodup)
    (hinputs : ∀ n ∈ nodes, ∀ a ∈ n.inputs, a ∈ nodes.map (·.name)) :
    (∀ a b, a ∈ (graphOf nodes).1.sourcesOf b ↔ Reads nodes a b) ∧
    (∀ a b, b ∈ (graphOf nodes).1.targetsOf a ↔ Reads nodes a b ∧ Before nodes a b) ∧
    (∀ b, b ∈ (graphOf nodes).1.order ↔ b ∈ nodes.map (·.name) ∧
      ∀ c, ReflTransGen (Reads nodes) c b → ∀ a, Reads nodes a c → Before nodes a c) ∧
    ((∀ a b, b ∈ (graphOf nodes).1.targetsOf a ↔ a ∈ (graphOf nodes).1.sourcesOf b) ↔
      ∀ a b, Reads nodes a b → Before nodes a b) ∧
    ((∀ n ∈ nodes, n.name ∈ (graphOf nodes).1.order) ↔ ∀ a b, Reads nodes a b → Before nodes a b) := by
  have h : Closed nodes := ⟨hnodup, hinputs⟩
  refine ⟨fun a b => mem_sourcesOf_graphOf h, fun a b => mem_targetsOf_graphOf h, fun b => ?_, ?_, ?_⟩
  · constructor
    · intro hb
      exact ⟨((mem_order_graphOf h).mp hb).1, ordered_of_mem_order h hb⟩
    · rintro ⟨hb, ho⟩
      exact mem_order_of_ordered h hb ho
  · refine forall₂_congr fun a b => ?_
    rw [mem_sourcesOf_graphOf h, mem_targetsOf_graphOf h, and_iff_left_iff_imp]
  · constructor
    · intro hall a b hr
      obtain ⟨n, hn, rfl⟩ := mem_map.mp hr.mem
      exact ordered_of_mem_order h (hall n hn) _ .refl a hr
    · intro hall n hn
      exact mem_order_of_ordered h (mem_map_of_mem hn) fun c _ a hr => hall a c hr

instance (nodes : List Layer) (a b : String) : Decidable (Reads nodes a b) :=
  inferInstanceAs (Decidable (a ≠ b ∧ ∃ n ∈ nodes, n.name = b ∧ a ∈ n.inputs))

def tangledNodes : List Layer := [
  { name := "x", op := "Placeholder" },
  { name := "s", op := "Softmax", inputs := ["r"] },
  { name := "r", op := "Relu", inputs := ["x"] }]

theorem edges_follow_listing_tangled : (tangledNodes.map (·.name)).Nodup ∧
    (∀ n ∈ tangledNodes, ∀ a ∈ n.inputs, a ∈ tangledNodes.map (·.name)) ∧
    "r" ∈ (graphOf tangledNodes).1.targetsOf "x" ∧ "r" ∈ (graphOf tangledNodes).1.sourcesOf "s" ∧
    "s" ∉ (graphOf tangledNodes).1.targetsOf "r" ∧
    ¬ ∀ n ∈ tangledNodes, n.name ∈ (graphOf tangledNodes).1.order := by
  have hnodup : (tangledNodes.map (·.name)).Nodup := by decide
  have hinputs : ∀ n ∈ tangledNodes, ∀ a ∈ n.inputs, a ∈ tangledNodes.map (·.name) := by decide
  obtain ⟨hsources, htargets, -, -, horder⟩ := edges_follow_listing tangledNodes hnodup hinputs
  have hlate : ¬Before tangledNodes "r" "s" := by unfold Before; decide
  refine ⟨hnodup, hinputs, (htargets "x" "r").mpr ⟨by decide, by unfold Before; decide⟩,
    (hsources "r" "s").mpr (by decide), fun hs => hlate ((htargets "r" "s").mp hs).2, fun hall => ?_⟩
  exact hlate (horder.mp hall "r" "s" (by decide))

def lateNodes : List Layer := [
  { name := "r", op := "Relu", inputs := ["x"] },
  { name := "x", op := "Placeholder" }]

/-- Nothing is behind itself, and still the reader is unknown to what it reads and not in the order. -/
theorem late_source_forgets_reader : (lateNodes.map (·.name)).Nodup ∧
    (∀ n ∈ lateNodes, ∀ a ∈ n.inputs, a ∈ lateNodes.map (·.name)) ∧
    (∀ a, ¬ TransGen (Reads lateNodes) a a) ∧ "x" ∈ (graphOf lateNodes).1.sourcesOf "r" ∧
    "r" ∉ (graphOf lateNodes).1.targetsOf "x" ∧ (graphOf lateNodes).1.order = ["x"] := by
  have hreads : ∀ a b, Reads lateNodes a b → a = "x" ∧ b = "r" := by
    rintro a b ⟨-, n, hn, rfl, ha⟩
    simp only [lateNodes, mem_cons, not_mem_nil, or_false] at hn
    rcases hn with rfl | rfl
    · exact ⟨mem_singleton.mp ha, rfl⟩
    · cases ha
  refine ⟨by decide, by decide, fun a ha => ?_, by decide, by decide, by decide⟩
  obtain ⟨b, hab, -⟩ := TransGen.head'_iff.mp ha
  obtain ⟨c, -, hca⟩ := TransGen.tail'_iff.mp ha
  exact absurd ((hreads a b hab).1.symm.trans (hreads c a hca).2) (by decide)

end NetBridge.Source.TensorFlow
