import NetBridge.Target.Generator
import NetBridge.Proofs.ModelLayers
import NetBridge.Proofs.NetworkGraph

/-!
# The wires of a Core ML model

What a layer of a model reads has to be there, and no name may be put out twice (`WellWired`); which networks give such
a model can be said from the network (`wires_wellWired_iff`).
-/

namespace NetBridge.Target.CoreMl

open Code Run List LayerGraph
open LayerGraph (graphOf)

/-! ## Models that are well wired -/

def Supplied : List String → List Wire → Prop
  | _, [] => True
  | given, w :: ws => (∀ i ∈ w.inputs, i ∈ given) ∧ Supplied (given ++ [w.output]) ws

/-- Whatever is read is there, and no name is put out twice. -/
structure WellWired (given : List String) (ws : List Wire) : Prop where
  supplied : Supplied given ws
  distinct : (ws.map (·.output)).Nodup

variable {given names : List String} {ws : List Wire} {P : Scope → Prop}

theorem supplied_append {ws' : List Wire} : Supplied given (ws ++ ws') ↔
    Supplied given ws ∧ Supplied (given ++ ws.map (·.output)) ws' := by
  induction ws generalizing given with
  | nil => simp [Supplied]
  | cons w ws ih => simp [Supplied, ih, and_assoc]

theorem supplied_chain {ins : List String} {o : String} {os : List String} :
    Supplied given (chain ins (o :: os)) ↔ ∀ i ∈ ins, i ∈ given := by
  induction os generalizing given ins o with
  | nil => simp [chain, Supplied]
  | cons o' os ih =>
    have hrest : Supplied (given ++ [o]) (chain [o] (o' :: os)) := ih.mpr (by simp)
    exact and_iff_left hrest

variable {g : Graph Layer} {l : Layer} {post pre : List Layer} {n : Network} {i : String}

theorem supplied_layerWires {out : String → String} :
    Supplied given (layerWires g out l) ↔ (l.op ∉ silent → ∀ i ∈ reads g out l, i ∈ given) := by
  unfold layerWires
  split
  · rename_i h
    exact iff_of_true trivial fun hn => absurd h hn
  · rename_i h
    cases hos : generated g out l ++ [l.name] with
    | nil => simp at hos
    | cons o os =>
      rw [supplied_chain]
      exact ⟨fun hall _ => hall, fun hall => hall h⟩

section
variable {out : String → String} {ls : List Layer} {given : List String}

theorem outputs_flatMap : (ls.flatMap (layerWires g out)).map (·.output) = ls.flatMap (puts g out) := by
  rw [map_flatMap]
  exact flatMap_congr fun l _ => outputs_layerWires g out l

theorem puts_sublist (h : ∀ l ∈ ls, generated g out l = []) :
    (ls.flatMap (puts g out)).Sublist (ls.map (·.name)) := by
  induction ls with
  | nil => exact .refl _
  | cons l ls ih =>
    have hrest := ih fun k hk => h k (.tail _ hk)
    rw [flatMap_cons, puts, h l (.head _)]
    split
    · exact hrest.cons _
    · exact hrest.cons_cons _

theorem supplied_flatMap : Supplied given (ls.flatMap (layerWires g out)) ↔
    ∀ pre l post, ls = pre ++ l :: post → l.op ∉ silent → ∀ i ∈ reads g out l,
      i ∈ given ∨ ∃ k ∈ pre, i ∈ puts g out k := by
  induction ls using reverseRecOn with
  | nil => simp [Supplied]
  | append_singleton ls a ih =>
    rw [flatMap_append, supplied_append, ih, flatMap_singleton, supplied_layerWires, outputs_flatMap]
    constructor
    · rintro ⟨hbefore, hlast⟩ pre l post e hop i hi
      rcases Graph.split_concat e with ⟨rfl, rfl⟩ | ⟨post', e⟩
      · simpa only [mem_append, mem_flatMap] using hlast hop i hi
      · exact hbefore pre l post' e hop i hi
    · intro hall
      refine ⟨fun pre l post e => hall pre l (post ++ [a]) (by rw [e]; simp), fun hop i hi => ?_⟩
      rw [mem_append, mem_flatMap]
      exact hall ls a [] rfl hop i hi

end

/-! ## All layers -/

def layersOf (g : Graph Layer) (names : List String) : List Layer :=
  names.filterMap fun m => (g.vertices.find? m).map (·.item)

theorem layersOf_concat {m : String} {u : Vertex Layer} (hu : g.vertices.find? m = some u)
    (names : List String) : layersOf g (names ++ [m]) = layersOf g names ++ [u.item] := by
  simp [layersOf, hu]

theorem names_layersOf (h : ∀ m ∈ names, ∃ v, g.vertices.find? m = some v ∧ v.item.name = m) :
    (layersOf g names).map (·.name) = names := by
  induction names with
  | nil => rfl
  | cons m names ih =>
    obtain ⟨v, hv, hname⟩ := h m (.head _)
    have hcons : layersOf g (m :: names) = v.item :: layersOf g names := by simp [layersOf, hv]
    rw [hcons, map_cons, hname, ih fun k hk => h k (.tail _ hk)]

theorem mem_layersOf : l ∈ layersOf g names ↔ ∃ m ∈ names, ∃ v, g.vertices.find? m = some v ∧ v.item = l := by
  simp [layersOf]

section
variable {out out' : String → String}

theorem reads_congr (h : ∀ p ∈ g.sourcesOf l.name, out p = out' p) : reads g out l = reads g out' l := by
  unfold reads
  have htake : ∀ p ∈ (g.sourcesOf l.name).take 1, out p = out' p := fun p hp => h p (mem_of_mem_take hp)
  rw [map_congr_left h, map_congr_left htake]

theorem generated_congr (h : ∀ p ∈ g.sourcesOf l.name, out p = out' p) : generated g out l = generated g out' l := by
  unfold generated
  have htake : ∀ p ∈ (g.sourcesOf l.name).take 1, out p ++ "_intermin_" = out' p ++ "_intermin_" :=
    fun p hp => by rw [h p (mem_of_mem_take hp)]
  rw [map_congr_left htake]

theorem layerWires_congr (h : ∀ p ∈ g.sourcesOf l.name, out p = out' p) : layerWires g out l = layerWires g out' l := by
  rw [layerWires, layerWires, reads_congr h, generated_congr h]

theorem After.congr {q : String} (h : ∀ p ∈ g.sourcesOf l.name, out p = out' p) (ha : After g out l q) :
    After g out' l q := by
  unfold After at ha ⊢
  split
  · rename_i hd
    rw [if_pos hd] at ha
    obtain ⟨p, hp, rfl⟩ := ha
    exact ⟨p, hp, h p (mem_of_head? hp)⟩
  · rename_i hd
    rwa [if_neg hd] at ha

end

structure Drawing (g : Graph Layer) (done : List String) (out : String → String) (st : State) : Prop where
  fresh : ∀ m, m ∉ done → out m = m
  after : ∀ m ∈ done, ∀ v, g.vertices.find? m = some v → After g out v.item (out m)
  drawn : Drawn g out ((layersOf g done).flatMap (layerWires g out)) st

section
variable {g : Graph Layer} (hnames : ∀ m v, g.vertices.find? m = some v → v.name = m ∧ v.item.name = m)
  (hpre : g.Preceded g.order) (hnodup : g.order.Nodup)
include hnames hpre hnodup

theorem drawing_layer {done todo : List String} {m : String} (horder : g.order = done ++ m :: todo) :
    Triple (fun st => ∃ out, Drawing g done out st) (do convertLayer (← inScope (vertex m)))
      fun _ st => ∃ out, Drawing g (done ++ [m]) out st := by
  have hnew : m ∉ done := not_mem_done hnodup horder
  rintro st ⟨out, hst⟩
  refine (Triple.bind_of (inScope_drawn (vertex_found m)) fun v hv => ?_) st hst.drawn
  obtain ⟨u, hu, rfl⟩ := hv
  obtain ⟨hname, hitem⟩ := hnames m u hu
  have ht : AtTurn g { u with outputName := out m } := by
    refine ⟨hname.trans hitem.symm, (hst.fresh m hnew).trans hitem.symm, ?_⟩
    rw [hitem, Graph.sourcesOf_of_find? hu]
  refine (convertLayer_drawn ht (by rw [hitem]; exact hst.fresh m hnew) _).post ?_
  rintro _ st' ⟨q, hafter, hdrawn⟩
  rw [hitem] at hdrawn
  -- only the output name of the layer itself is new
  have hother {k : String} (hk : k ≠ m) : out k = Graph.renameAt out m q k := (Graph.renameAt_of_ne out q hk).symm
  have hsame {k : String} (hk : k ∈ done ++ [m]) : ∀ p ∈ g.sourcesOf k, out p = Graph.renameAt out m q p := by
    intro p hp
    refine hother ?_
    rintro rfl
    exact hnew (hpre.source_mem horder hk hp)
  refine ⟨Graph.renameAt out m q, Graph.fresh_renameAt hst.fresh m q, fun k hk v hv => ?_, hdrawn.renamed, ?_⟩
  · have hitem' := (hnames k v hv).2
    rcases mem_append.mp hk with hk' | hk'
    · rw [← hother fun e => hnew (e ▸ hk')]
      exact (hst.after k hk' v hv).congr (hitem' ▸ hsame hk)
    · rw [mem_singleton] at hk'
      subst hk'
      cases hu.symm.trans hv
      rw [Graph.renameAt_self]
      exact hafter.congr (hitem ▸ hsame hk)
  · rw [hdrawn.drawn, layersOf_concat hu, flatMap_append, flatMap_singleton]
    congr 1
    · refine flatMap_congr fun l hl => layerWires_congr ?_
      obtain ⟨k, hk, v, hv, rfl⟩ := mem_layersOf.mp hl
      rw [(hnames k v hv).2]
      exact hsame (mem_append_left _ hk)
    · refine layerWires_congr ?_
      rw [hitem]
      exact hsame (by simp)

theorem drawing_all : Triple (fun st => ∃ out, Drawing g [] out st)
    (g.order.forM fun m => do convertLayer (← inScope (vertex m))) fun _ st => ∃ out, Drawing g g.order out st :=
  .forM (I := fun done st => ∃ out, Drawing g done out st) fun _ _ _ e => drawing_layer hnames hpre hnodup e

end

/-! ## The whole conversion -/

theorem wires_call (name : String) (hname : name ∉ layerCalls) (named : List (String × Value)) (args : List Value) :
    Keeps (fun st => P st.scope ∧ wires st.calls = ws) (call name named args) := by
  refine .modify fun st hst => ⟨hst.1, ?_⟩
  rw [← hst.2]
  simp [wires, wireOf, hname]

theorem setClasses_keeps (o : Options) : Keeps (fun st => P st.scope ∧ wires st.calls = ws) (setClasses o) := by
  unfold setClasses
  split
  · exact .bind keeps_lift fun _ => wires_call "set_class_labels" (by decide) _ _
  · exact keeps_pure

def Same (g : Graph Layer) (s : Scope) : Prop := s.graph.graph.vertices = g.vertices ∧ s.graph.graph.order = g.order

theorem takeInputs_same : Keeps (Same g) takeInputs := by
  refine .bind (Q := fun t s => Same g s ∧ t = s) (.get fun _ h => ⟨h, rfl⟩) fun t => ?_
  refine .bind (.set ?_) fun _ => keeps_pure
  rintro _ ⟨hs, rfl⟩
  split
  · exact hs
  · exact hs

theorem sayFeature_same (role : String) (f : Feature) : Keeps (Same g) (sayFeature role f) := .modify fun _ hs => hs

theorem inputFeature_same (name : String) : Keeps (Same g) (inputFeature name) := by
  refine .look fun v => .look fun shape => ?_
  split
  · exact .look fun _ => .bind (sayFeature_same _ _) fun _ => keeps_pure
  · exact .throw

theorem outputFeature_same (name : String) : Keeps (Same g) (outputFeature name) :=
  .look fun _ => .look fun _ => .look fun _ => .look fun _ =>
    .bind (sayFeature_same _ _) fun _ => keeps_pure

theorem convert_spec (hnames : ∀ m v, g.vertices.find? m = some v → v.name = m ∧ v.item.name = m)
    (hid : ∀ m v, g.vertices.find? m = some v → v.outputName = m) (hpre : g.Preceded g.order) (hnodup : g.order.Nodup)
    (o : Options) : Triple (fun st => Same g st.scope ∧ wires st.calls = []) (convert o)
      fun _ st => ∃ out, Drawing g g.order out st := by
  have hinputs : Keeps (Same g) (do (← takeInputs).mapM inputFeature : Emit (List Feature)) :=
    Triple.bind takeInputs_same fun _ => .mapM fun _ m _ _ _ => inputFeature_same m
  have houtputs : Keeps (Same g) (do (← layers).outputs.mapM outputFeature : Emit (List Feature)) :=
    .look fun _ => .mapM fun _ m _ _ _ => outputFeature_same m
  have horder : Gets (Same g) (do return (← layers).order : Emit (List String)) fun names =>
      names = g.order := by
    refine .bind ?_ fun h => .pure fun s hs => hs
    exact .bind (Q := fun t s => Same g s ∧ Same g t) (.get fun _ h => ⟨h, h⟩) fun t =>
      .pure fun s hs => ⟨hs.1, hs.2.2⟩
  refine .bind (inScope_spec hinputs) fun inputs => Triple.bind (inScope_spec houtputs) fun outputs => ?_
  refine .bind (wires_call "NeuralNetworkBuilder" (by decide) _ _) fun _ => ?_
  refine .bind (inScope_spec horder) fun names => ?_
  rintro st ⟨⟨⟨hvertices, horder⟩, rfl⟩, hws⟩
  have hstart : Drawing g [] id st := by
    refine ⟨fun _ _ => rfl, nofun, fun m => ?_, hws⟩
    rw [hvertices]
    exact Graph.renamed_id hid m
  refine (Triple.bind (drawing_all hnames hpre hnodup) fun _ => ?_) st ⟨id, hstart⟩
  rintro st ⟨out, hst⟩
  refine (Triple.bind (setClasses_keeps (P := fun s => g.Renamed out s.graph.graph) o) fun _ => ?_) st
    ⟨hst.drawn.renamed, hst.drawn.drawn⟩
  refine .bind keeps_lift fun image => ?_
  refine .bind (wires_call "set_pre_processing_parameters" (P := fun s => g.Renamed out s.graph.graph) (by decide)
    _ _) fun _ => ?_
  have hsay : Keeps (fun s => g.Renamed out s.graph.graph) (say "") := .modify fun _ hs => hs
  refine .bind (inScope_spec hsay) fun _ => ?_
  exact .pure fun st' hst' => ⟨out, hst.fresh, hst.after, hst'.1, hst'.2⟩

theorem convert_drawing {w : Option Weights} {o : Options} {r : List Feature × List Feature} {s : State}
    (h : (convert o).outcome { scope := startScope n w "test" } = (.ok r, s)) :
    ∃ out, Drawing (graphOf n) (graphOf n).order out s := by
  refine convert_spec (fun _ _ => named_graphOf) (fun m v hv => (find?_graphOf hv).2.2.2)
    (preceded_order_graphOf n) (nodup_order_graphOf n) o _ ⟨⟨rfl, rfl⟩, rfl⟩ r s h

/-! ## When a model is well wired -/

def converted (n : Network) : List Layer := layersOf (graphOf n) (graphOf n).order

def dataInputs (n : Network) : List String := (n.layers.filter (·.op = "DataInput")).map (·.name)

theorem names_converted (n : Network) : (converted n).map (·.name) = (graphOf n).order := by
  refine names_layersOf fun m hm => ?_
  obtain ⟨v, hv⟩ := Table.mem_keys_iff.mp (mem_keys_of_order_graphOf hm)
  exact ⟨v, hv, (named_graphOf hv).2⟩

theorem nodup_converted (n : Network) : ((converted n).map (·.name)).Nodup := by
  rw [names_converted]
  exact nodup_order_graphOf n

theorem mem_layers_of_converted (hl : l ∈ converted n) : l ∈ n.layers := by
  obtain ⟨m, -, v, hv, rfl⟩ := mem_layersOf.mp hl
  exact (find?_graphOf hv).1

theorem converted_apart {l k : Layer} (hsplit : converted n = pre ++ l :: post) (hk : k ∈ pre) : k.name ≠ l.name := by
  have hnodup := nodup_converted n
  rw [hsplit, map_append] at hnodup
  exact (nodup_append.mp hnodup).2.2 _ (mem_map_of_mem hk) _ (.head _)

theorem source_in_prefix (hsplit : converted n = pre ++ l :: post)
    {p : String} (hp : p ∈ (graphOf n).sourcesOf l.name) : ∃ k ∈ pre, k.name = p := by
  have horder : (graphOf n).order = pre.map (·.name) ++ l.name :: post.map (·.name) := by
    rw [← names_converted, hsplit, map_append, map_cons]
  exact mem_map.mp (preceded_order_graphOf n _ _ _ horder p hp)

theorem listed_in_prefix (hsplit : converted n = pre ++ l :: post) (hi : i ∈ l.inputs) (hname : i ∈ n.names)
    (hne : i ≠ l.name) : ∃ k ∈ pre, k.name = i := by
  have hl : l ∈ n.layers := mem_layers_of_converted (by rw [hsplit]; simp)
  have hfeeds : n.Feeds i l.name := ⟨hne, hname, mem_map_of_mem hl, l, hl, rfl, hi⟩
  rw [← feeds_graphOf] at hfeeds
  exact source_in_prefix hsplit hfeeds

section
variable {n : Network} {out : String → String}
  (hafter : ∀ l ∈ converted n, After (graphOf n) out l (out l.name))
include hafter

theorem exists_stem (hsplit : converted n = pre ++ post) :
    ∀ a ∈ pre, ∃ k ∈ pre, k.name = out a.name ∧ k.op ≠ "Dropout" := by
  induction pre using reverseRecOn generalizing post with
  | nil => nofun
  | append_singleton pre b ih =>
    have hsplit' : converted n = pre ++ b :: post := by rw [hsplit, append_assoc]; rfl
    intro a ha
    rcases mem_append.mp ha with ha | ha
    · obtain ⟨k, hk, h⟩ := ih hsplit' a ha
      exact ⟨k, mem_append_left _ hk, h⟩
    · rw [mem_singleton] at ha
      subst ha
      have hb := hafter a (by rw [hsplit']; simp)
      unfold After at hb
      split at hb
      · obtain ⟨p, hp, hq⟩ := hb
        obtain ⟨c, hc, rfl⟩ := source_in_prefix hsplit' (mem_of_head? hp)
        obtain ⟨k, hk, hname, hop⟩ := ih hsplit' c hc
        exact ⟨k, mem_append_left _ hk, hname.trans hq.symm, hop⟩
      · rename_i hop
        exact ⟨a, by simp, hb.symm, hop⟩

/-- What a layer other than Relu6 reads is the name of a layer before it that is not dropped. -/
theorem read_in_prefix (hsplit : converted n = pre ++ l :: post)
    (hop : l.op ≠ "Relu6") (hi : i ∈ reads (graphOf n) out l) :
    ∃ k ∈ pre, k.name = i ∧ k.op ≠ "Dropout" := by
  obtain ⟨p, hp, rfl⟩ : ∃ p ∈ (graphOf n).sourcesOf l.name, out p = i := by
    rw [reads, if_neg hop] at hi
    split at hi
    · exact mem_map.mp hi
    · obtain ⟨p, hp, h⟩ := mem_map.mp hi
      exact ⟨p, mem_of_mem_take hp, h⟩
  obtain ⟨c, hc, rfl⟩ := source_in_prefix hsplit hp
  exact exists_stem hafter hsplit c hc

theorem named_read_in_prefix (hsplit : converted n = pre ++ l :: post)
    (hi : i ∈ reads (graphOf n) out l) (hname : i ∈ n.names) (hne : i ≠ l.name) : ∃ k ∈ pre, k.name = i := by
  by_cases hop : l.op = "Relu6"
  · rw [reads, if_pos hop] at hi
    exact listed_in_prefix hsplit (mem_of_mem_take hi) hname hne
  · obtain ⟨k, hk, h, -⟩ := read_in_prefix hafter hsplit hop hi
    exact ⟨k, hk, h⟩

/-- Whatever is read is there exactly if it is the name of another layer that is neither dropped nor unknown, or has
been generated before. -/
theorem supplied_iff (hnames : n.names.Nodup) :
    Supplied (dataInputs n) ((converted n).flatMap (layerWires (graphOf n) out)) ↔
      ∀ pre l post, converted n = pre ++ l :: post → l.op ∉ silent → ∀ i ∈ reads (graphOf n) out l,
        (i ≠ l.name ∧ ∃ k ∈ converted n, k.name = i ∧ k.op ≠ "Dropout" ∧ k.op ≠ "UNKNOWN") ∨
          ∃ k ∈ pre, i ∈ generated (graphOf n) out k := by
  have hmem {pre post : List Layer} {l k : Layer} (hsplit : converted n = pre ++ l :: post) (hk : k ∈ pre) :
      k ∈ converted n := by
    rw [hsplit]
    exact mem_append_left _ hk
  rw [supplied_flatMap]
  constructor
  · intro hall pre l post hsplit hop i hi
    rcases hall pre l post hsplit hop i hi with hdata | ⟨k, hk, hput⟩
    · obtain ⟨d, hd, rfl⟩ := mem_map.mp hdata
      obtain ⟨hd, hdop⟩ := mem_filter.mp hd
      rw [decide_eq_true_eq] at hdop
      have hl : l ∈ n.layers := mem_layers_of_converted (by rw [hsplit]; simp)
      have hne : d.name ≠ l.name := by
        intro e
        obtain rfl := inj_on_of_nodup_map hnames hd hl e
        exact hop (by rw [hdop]; decide)
      obtain ⟨k, hk, hname⟩ := named_read_in_prefix hafter hsplit hi (mem_map_of_mem hd) hne
      obtain rfl := inj_on_of_nodup_map hnames (mem_layers_of_converted (hmem hsplit hk)) hd hname
      exact .inl ⟨hne, k, hmem hsplit hk, rfl, by rw [hdop]; decide, by rw [hdop]; decide⟩
    · unfold puts at hput
      split at hput
      · cases hput
      · rename_i hkop
        rcases mem_append.mp hput with hput | hput
        · exact .inr ⟨k, hk, hput⟩
        · rw [mem_singleton] at hput
          subst hput
          refine .inl ⟨converted_apart hsplit hk, k, hmem hsplit hk, rfl, ?_, ?_⟩
          · exact fun e => hkop (by rw [e]; decide)
          · exact fun e => hkop (by rw [e]; decide)
  · intro hall pre l post hsplit hop i hi
    rcases hall pre l post hsplit hop i hi with ⟨hne, k, hk, rfl, hdropped, hunknown⟩ | ⟨k, hk, hgenerated⟩
    · obtain ⟨k', hk', hname⟩ := named_read_in_prefix hafter hsplit hi
        (mem_map_of_mem (mem_layers_of_converted hk)) hne
      obtain rfl := inj_on_of_nodup_map (nodup_converted n) (hmem hsplit hk') hk hname
      by_cases hdata : k'.op = "DataInput"
      · have hd : k' ∈ n.layers.filter (·.op = "DataInput") :=
          mem_filter.mpr ⟨mem_layers_of_converted hk, decide_eq_true hdata⟩
        exact .inl (mem_map_of_mem hd)
      · refine .inr ⟨k', hk', ?_⟩
        rw [puts, if_neg (by simp [silent, hdata, hdropped, hunknown])]
        simp
    · refine .inr ⟨k, hk, ?_⟩
      rw [puts, if_neg fun hs => ?_]
      · exact mem_append_left _ hgenerated
      · rw [generated_silent hs] at hgenerated
        cases hgenerated

/-- Without operators that become several layers and without unknown ones nothing goes wrong. -/
theorem wellWired_of_plain (hnames : n.names.Nodup)
    (hall : ∀ l ∈ converted n, l.op ≠ "Relu6" ∧ l.op ≠ "SeparableConv" ∧ l.op ≠ "UNKNOWN") :
    WellWired (dataInputs n) ((converted n).flatMap (layerWires (graphOf n) out)) := by
  refine ⟨(supplied_iff hafter hnames).mpr fun pre l post hsplit hop i hi => .inl ?_, ?_⟩
  · obtain ⟨k, hk, hname, hdropped⟩ := read_in_prefix hafter hsplit (hall l (by rw [hsplit]; simp)).1 hi
    have hconverted : k ∈ converted n := by
      rw [hsplit]
      exact mem_append_left _ hk
    refine ⟨hname ▸ converted_apart hsplit hk, k, hconverted, hname, hdropped, (hall k hconverted).2.2⟩
  · have hnone : ∀ l ∈ converted n, generated (graphOf n) out l = [] := by
      intro l hl
      rw [generated, if_neg (hall l hl).1, if_neg (hall l hl).2.1]
    rw [outputs_flatMap]
    exact (nodup_converted n).sublist (puts_sublist hnone)

end

/-- **The wires of a model.** The layers that a conversion adds are those of the layers of the network, in order. They
are well wired exactly if no name is put out twice, generated names included, and everything that is read is the name of
another layer that is neither dropped nor unknown, or a name generated before. Without Relu6, separable convolutions and
unknown operators they always are. -/
theorem wires_wellWired_iff (n : Network) (w : Option Weights) (o : Options) (r : List Feature × List Feature)
    (s : State) (hnames : n.names.Nodup)
    (hrun : (convert o).outcome { scope := startScope n w "test" } = (.ok r, s)) :
    ∃ out : String → String, (∀ l ∈ converted n, After (graphOf n) out l (out l.name)) ∧
      wires s.calls = (converted n).flatMap (layerWires (graphOf n) out) ∧
      (WellWired (dataInputs n) (wires s.calls) ↔
        ((converted n).flatMap (puts (graphOf n) out)).Nodup ∧
        ∀ pre l post, converted n = pre ++ l :: post → l.op ∉ silent → ∀ i ∈ reads (graphOf n) out l,
          (i ≠ l.name ∧ ∃ k ∈ converted n, k.name = i ∧ k.op ≠ "Dropout" ∧ k.op ≠ "UNKNOWN") ∨
            ∃ k ∈ pre, i ∈ generated (graphOf n) out k) ∧
      ((∀ l ∈ converted n, l.op ≠ "Relu6" ∧ l.op ≠ "SeparableConv" ∧ l.op ≠ "UNKNOWN") →
        WellWired (dataInputs n) (wires s.calls)) := by
  obtain ⟨out, h⟩ := convert_drawing hrun
  have hafter : ∀ l ∈ converted n, After (graphOf n) out l (out l.name) := by
    intro l hl
    obtain ⟨m, hm, v, hv, rfl⟩ := mem_layersOf.mp hl
    rw [(find?_graphOf hv).2.1]
    exact h.after m hm v hv
  have hwires : wires s.calls = (converted n).flatMap (layerWires (graphOf n) out) := h.drawn.drawn
  refine ⟨out, hafter, hwires, ?_, fun hall => hwires ▸ wellWired_of_plain hafter hnames hall⟩
  rw [hwires, ← supplied_iff hafter hnames, ← outputs_flatMap]
  exact ⟨fun hw => ⟨hw.distinct, hw.supplied⟩, fun hw => ⟨hw.2, hw.1⟩⟩

def droppedModel (op : String) : Network := { layers := [
  { name := "x", op := "DataInput", attrs := .ofList [("shape", .shape [1, 2, 2, 3])] },
  { name := "d", op := "Dropout", inputs := ["x"] },
  { name := "r", op := op, inputs := ["d"] }] }

theorem wires_wellWired_iff_dropped : ∃ r s,
    (convert {}).outcome { scope := startScope (droppedModel "Relu") (some ∅) "test" } = (.ok r, s) ∧
    wires s.calls = [{ inputs := ["x"], output := "r" }] ∧ WellWired ["x"] (wires s.calls) := by
  obtain ⟨r, s, hrun, hwires⟩ : ∃ r s,
      (convert {}).outcome { scope := startScope (droppedModel "Relu") (some ∅) "test" } = (.ok r, s) ∧
      wires s.calls = [{ inputs := ["x"], output := "r" }] := ⟨_, _, rfl, by decide +kernel⟩
  obtain ⟨-, -, -, -, hplain⟩ := wires_wellWired_iff (droppedModel "Relu") (some ∅) {} r s (by decide) hrun
  exact ⟨r, s, hrun, hwires, hplain (by decide +kernel)⟩

theorem relu6_reads_dropped : (droppedModel "Relu6").names.Nodup ∧ ∃ r s,
    (convert {}).outcome { scope := startScope (droppedModel "Relu6") (some ∅) "test" } = (.ok r, s) ∧
    (wires s.calls).head? = some { inputs := ["d"], output := "r_relu" } ∧
    ¬ WellWired (dataInputs (droppedModel "Relu6")) (wires s.calls) := by
  obtain ⟨r, s, hrun, hhead⟩ : ∃ r s,
      (convert {}).outcome { scope := startScope (droppedModel "Relu6") (some ∅) "test" } = (.ok r, s) ∧
      (wires s.calls).head? = some { inputs := ["d"], output := "r_relu" } := ⟨_, _, rfl, by decide +kernel⟩
  refine ⟨by decide, r, s, hrun, hhead, fun h => ?_⟩
  have hsupplied := h.supplied
  cases hws : wires s.calls with
  | nil => rw [hws] at hhead; cases hhead
  | cons w ws =>
    rw [hws] at hhead hsupplied
    obtain rfl := Option.some.inj hhead
    exact absurd (hsupplied.1 "d" (by simp)) (by decide)

end NetBridge.Target.CoreMl
