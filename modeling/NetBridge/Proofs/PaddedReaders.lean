import NetBridge.Target.Generator
import NetBridge.Proofs.CodeFrame
import NetBridge.Proofs.NetworkGraph

/-!
# Layers with a padding layer before them

A layer whose pads differ is given a padding layer, and then its sources lead to the variable of that layer. `ledTo` is
the name that a source has for a target after a number of layers, `walked` the graph at that time.
-/

namespace NetBridge.Target.MxNet

open Code Run List
open LayerGraph (graphOf)

/-! ## The sources of a padded layer -/

def behindPad (var x : String) : String := if x = var then var ++ "_pad" else x

@[simp] theorem behindPad_behindPad (var x : String) : behindPad var (behindPad var x) = behindPad var x := by
  by_cases h : x = var
  · simp [behindPad, h]
  · simp [behindPad, h]

def rerouted (var : String) (sources : List String) (g : Graph Layer) : Graph Layer :=
  { g with vertices := g.vertices.map fun m u =>
      if m ∈ sources ∧ m ≠ "data" then { u with targets := u.targets.map (behindPad var) } else u }

theorem find?_rerouted (var : String) (sources : List String) (g : Graph Layer) (m : String) :
    (rerouted var sources g).vertices.find? m = (g.vertices.find? m).map fun u =>
      if m ∈ sources ∧ m ≠ "data" then { u with targets := u.targets.map (behindPad var) } else u := by
  simp [rerouted]

def retargeted (e : String) (targets : List String) (s : Scope) : Scope :=
  { s with graph := { s.graph with graph := s.graph.graph.modify e fun u => { u with targets := targets } } }

variable {g : Graph Layer} {p : String} {w : Vertex Layer}

variable {v : Vertex Layer} {s : Scope}

section
variable {e : String}

theorem vertex_eq_ok {s' : Scope} :
    (vertex e).outcome s = (.ok w, s') ↔ s.graph.graph.vertices.find? e = some w ∧ s = s' := by
  constructor
  · intro h
    obtain ⟨g, _, ⟨⟩, h⟩ := step_cases h
    obtain ⟨hw, rfl⟩ := lift_eq_ok.mp h
    exact ⟨Graph.vertex_eq_ok.mp hw, rfl⟩
  · rintro ⟨h, rfl⟩
    exact bind_ok rfl (lift_ok (Graph.vertex_eq_ok.mpr h))

theorem redirect_outcome (he : e ≠ "data") (hlisted : e ∈ s.graph.graph.order)
    (hw : s.graph.graph.vertices.find? e = some w) :
    (redirect v e).outcome s = if ∀ x ∈ w.targets, x ∈ s.graph.graph.order then
      (.ok (), retargeted e (w.targets.map (behindPad v.variableName)) s) else (.error Fault.key, s) := by
  unfold redirect
  rw [outcome_bind]
  show outcome _ s = _
  rw [if_neg he, outcome_bind, Run.require, if_pos (by simpa using hlisted)]
  show outcome _ s = _
  rw [outcome_bind, vertex_eq_ok.mpr ⟨hw, rfl⟩]
  show outcome _ s = _
  rw [Run.require]
  by_cases hall : ∀ x ∈ w.targets, x ∈ s.graph.graph.order
  · rw [if_pos hall, if_pos (by simpa using hall)]
    rfl
  · rw [if_neg hall, if_neg (by simpa using hall)]
    rfl

end

structure Stands (g : Graph Layer) (out : String → String) (h : LayerGraph) : Prop where
  renamed : g.Renamed out h.graph
  order : h.graph.order = g.order

variable {g' : Graph Layer} {done : List String} {u : Vertex Layer}

section
variable {out : String → String}

theorem Stands.congr {h : LayerGraph} (hg : Stands g out h)
    (hfind : ∀ m, g'.vertices.find? m = g.vertices.find? m) (horder : g'.order = g.order) : Stands g' out h := by
  refine ⟨fun m => ?_, hg.order.trans horder.symm⟩
  rw [hfind, hg.renamed m]

theorem Stands.retargeted {var e : String}
    (hs : Stands (rerouted var done g) out s.graph) (he : e ≠ "data") (hw : s.graph.graph.vertices.find? e = some w) :
    Stands (rerouted var (done ++ [e]) g) out (retargeted e (w.targets.map (behindPad var)) s).graph := by
  refine ⟨fun m => ?_, hs.order⟩
  have hm := hs.renamed m
  rw [find?_rerouted] at hm ⊢
  refine (Table.find?_modify ..).trans ?_
  by_cases hem : e = m
  · subst hem
    rw [hw] at hm
    obtain ⟨u, hu, rfl⟩ : ∃ u, g.vertices.find? e = some u ∧ _ = w := by simpa using hm.symm
    by_cases hdone : e ∈ done <;> simp [hw, hu, he, hdone]
  · have hsame : m ∈ done ++ [e] ↔ m ∈ done := by simp [Ne.symm hem]
    rw [if_neg hem, hm]
    simp only [hsame]

theorem redirect_stands (done : List String) (e : String) :
    Triple (fun s => Stands (rerouted v.variableName done g) out s.graph) (redirect v e)
      fun _ s => Stands (rerouted v.variableName (done ++ [e]) g) out s.graph := by
  intro s hs a s' hrun
  by_cases he : e = "data"
  · subst he
    cases hrun
    refine hs.congr (fun m => ?_) rfl
    have hsame : (m ∈ done ++ ["data"] ∧ m ≠ "data") ↔ (m ∈ done ∧ m ≠ "data") := by
      rw [mem_append, mem_singleton]
      tauto
    simp only [find?_rerouted, hsame]
  obtain ⟨o, _, ⟨⟩, hrun⟩ := step_cases hrun
  rw [if_neg he] at hrun
  obtain ⟨_, s₁, h₁, hrun⟩ := step_cases hrun
  obtain rfl := keeps_require s rfl _ s₁ h₁
  obtain ⟨w, s₂, hw, hrun⟩ := step_cases hrun
  obtain ⟨hfind, rfl⟩ := vertex_eq_ok.mp hw
  obtain ⟨_, s₂, h₂, hrun⟩ := step_cases hrun
  obtain rfl := keeps_require s rfl _ s₂ h₂
  cases hrun
  exact hs.retargeted he hfind

theorem padLine_turns (widths : List Int) (fill : String) :
    Turns (Stands g out) (Stands (rerouted v.variableName v.sources g) out) (padLine v widths fill) := by
  refine .after inferInstance fun x => ?_
  refine ⟨.bind ?_
    fun _ => .pure fun _ h => h⟩
  have hnone : ∀ m, (rerouted v.variableName [] g).vertices.find? m = g.vertices.find? m := by
    simp [find?_rerouted]
  exact (Triple.forM
    fun done e _ _ => redirect_stands done e).imp (fun s hs => hs.congr hnone rfl) fun _ _ h => h

def needsPad (l : Layer) : Bool := padding.contains l.op && outerPads l

def paddedAt (v : Vertex Layer) (g : Graph Layer) : Graph Layer :=
  if needsPad v.item then rerouted v.variableName v.sources g else g

theorem order_paddedAt (v : Vertex Layer) (g : Graph Layer) : (paddedAt v g).order = g.order := by
  unfold paddedAt
  split <;> rfl

theorem paddedAt_of_not_mem (hop : v.item.op ∉ padding) : paddedAt v g = g := by
  simp [paddedAt, needsPad, hop]

theorem stands_of_turns {α : Type} {x : Emit α} (hx : Turns (Stands g out) (Stands g' out) x)
    (n : String) : Triple (fun s => Stands g out s.graph) x
      fun _ s => ∃ q, Stands g' (Graph.renameAt out n q) s.graph := by
  refine hx.turns.post fun _ _ h => ⟨out n, ?_⟩
  rwa [Graph.renameAt_same]

theorem rule_stands {r : LayerRule} (hr : rule v.item.op = some r) :
    Triple (fun s => Stands g out s.graph) (r v)
      fun _ s => ∃ q, Stands (paddedAt v g) (Graph.renameAt out v.name q) s.graph := by
  by_cases hop : v.item.op ∈ padding
  · have hpad : needsPad v.item = outerPads v.item := by simp [needsPad, hop]
    refine stands_of_turns (padding_turns (fun hinner _ h => ?_) (fun houter widths fill => ?_) hop hr) v.name
    · rwa [paddedAt, hpad, hinner, if_neg (by decide)]
    · rw [paddedAt, hpad, houter]
      exact padLine_turns widths fill
  rw [paddedAt_of_not_mem hop]
  by_cases hclip : v.item.op = "Relu6"
  · rw [hclip] at hr
    cases hr
    -- the one rule that renames its layer
    refine .bind (Still.turns inferInstance fun _ h => h).turns fun lines => ?_
    refine .bind ?_ fun _ => .pure fun _ h => h
    exact .modify fun s hs => ⟨_, hs.renamed.modify v.name _, hs.order⟩
  · exact stands_of_turns ((rule_still hr hop hclip).turns fun _ h => h) v.name

theorem ruleOr_stands : Triple (fun s => Stands g out s.graph) (ruleOr "MXNet Emitter" rule v)
    fun _ s => ∃ q, Stands (paddedAt v g) (Graph.renameAt out v.name q) s.graph := by
  unfold ruleOr
  split
  · rename_i r hr
    exact rule_stands hr
  · rename_i hr
    have hop : v.item.op ∉ padding := by
      intro hop
      simp only [padding, mem_cons, not_mem_nil, or_false] at hop
      rcases hop with h | h | h | h <;> rw [h] at hr <;> cases hr
    rw [paddedAt_of_not_mem hop]
    exact stands_of_turns (Still.turns inferInstance fun _ h => h) v.name

theorem code_stands : Triple (fun s => Stands g out s.graph)
    (do
      let lines ← ruleOr "MXNet Emitter" rule v
      if v.item.op = "DataInput" then feed v
      return lines)
    fun _ s => ∃ q, Stands (paddedAt v g) (Graph.renameAt out v.name q) s.graph := by
  refine ruleOr_stands.bind fun lines => ?_
  have hstill : Still (do
      if v.item.op = "DataInput" then feed v
      return lines) := by infer_instance
  exact (hstill.turns (P := fun h => ∃ q, Stands (paddedAt v g) (Graph.renameAt out v.name q) h) fun _ h => h).turns

end

/-! ## The walk along the order -/

def readsPadded (g : Graph Layer) (p c : String) : Bool :=
  p != "data" && (g.vertices.find? c).any fun v => needsPad v.item && v.sources.contains p

def ledTo (g : Graph Layer) (p : String) (done : List String) (x : String) : String :=
  done.foldl (fun y c => if readsPadded g p c then behindPad (variableName c) y else y) x

@[simp] theorem ledTo_nil (g : Graph Layer) (p : String) : ledTo g p [] = id := rfl

theorem ledTo_concat (g : Graph Layer) (p : String) (done : List String) (c x : String) :
    ledTo g p (done ++ [c]) x =
      if readsPadded g p c then behindPad (variableName c) (ledTo g p done x) else ledTo g p done x := by
  simp [ledTo]

def turned (g : Graph Layer) (done : List String) (fed : Bool) (u : Vertex Layer) : Vertex Layer :=
  { u with
    sources := if fed && u.sources.isEmpty then ["data"] else u.sources
    targets := u.targets.map (ledTo g u.name done) }

def walked (g : Graph Layer) (fed done : List String) : Graph Layer :=
  { g with vertices := g.vertices.map fun m u => turned g done (fed.contains m) u }

section
variable {out : String → String} {c : String}

theorem find?_walked (g : Graph Layer) (fed done : List String) (m : String) :
    (walked g fed done).vertices.find? m = (g.vertices.find? m).map (turned g done (fed.contains m)) := by
  simp [walked]

theorem find?_walked_nil (g : Graph Layer) (m : String) : (walked g [] []).vertices.find? m = g.vertices.find? m := by
  cases h : g.vertices.find? m <;> simp [find?_walked, turned, h]

theorem readsPadded_iff (done : List String) (hu : g.vertices.find? c = some u) (m : String) :
    readsPadded g m c = true ↔ needsPad u.item = true ∧ m ∈ (turned g done true u).sources ∧ m ≠ "data" := by
  by_cases hnil : u.sources = []
  · simp [readsPadded, hu, turned, hnil]
  · simp [readsPadded, hu, turned, hnil]
    tauto

theorem turned_concat (g : Graph Layer) (done : List String) (c : String) (fed : Bool) (u : Vertex Layer) :
    turned g (done ++ [c]) fed u = if readsPadded g u.name c then
      { turned g done fed u with targets := (turned g done fed u).targets.map (behindPad (variableName c)) }
      else turned g done fed u := by
  by_cases h : readsPadded g u.name c = true
  · simp [turned, ledTo_concat, h]
  · simp [turned, ledTo_concat, h]

variable (hnamed : ∀ m u, g.vertices.find? m = some u → u.name = m)
include hnamed

theorem find?_paddedAt {u v : Vertex Layer} (hu : g.vertices.find? c = some u)
    (hv : v = { turned g done true u with outputName := c }) (m : String) :
    (walked g (done ++ [c]) (done ++ [c])).vertices.find? m =
      (paddedAt v (walked g (done ++ [c]) done)).vertices.find? m := by
  have hreads := readsPadded_iff done hu m
  have hsources : v.sources = (turned g done true u).sources := by rw [hv]
  have hitem : v.item = u.item := by rw [hv]; rfl
  have hvar : v.variableName = variableName c := by rw [hv]; rfl
  rw [paddedAt, hitem, find?_walked]
  by_cases hpad : needsPad u.item = true
  · rw [if_pos hpad, find?_rerouted, find?_walked, hsources, hvar, Option.map_map]
    refine Option.map_congr fun w hw => ?_
    obtain rfl := hnamed m w hw
    rw [turned_concat]
    refine if_congr ?_ rfl rfl
    rw [hreads]
    exact and_iff_right hpad
  · rw [if_neg hpad, find?_walked]
    refine Option.map_congr fun w hw => ?_
    obtain rfl := hnamed m w hw
    rw [turned_concat, if_neg fun h => hpad (hreads.mp h).1]

omit hnamed in
theorem find?_fed (g : Graph Layer) (done : List String) (c m : String) :
    (walked g (done ++ [c]) done).vertices.find? m =
      if c = m then (g.vertices.find? m).map (turned g done true) else (walked g done done).vertices.find? m := by
  by_cases h : c = m
  · simp [find?_walked, h]
  · simp [find?_walked, h, Ne.symm h]

theorem sourced_outcome (hs : Stands (walked g done done) out s.graph)
    (hu : g.vertices.find? c = some u) (hc : c ∉ done) : ∃ w t, (vertex c).outcome s = (.ok w, s) ∧
      (sourced w).outcome s = (.ok { turned g done true u with outputName := out c }, t) ∧
      Stands (walked g (done ++ [c]) done) out t.graph := by
  have hw : s.graph.graph.vertices.find? c = some { turned g done false u with outputName := out c } := by
    rw [hs.renamed c, find?_walked, hu]
    simp [hc]
  obtain rfl := hnamed c u hu
  by_cases hnil : u.sources = []
  · let t : Scope := { s with graph := { s.graph with
      graph := s.graph.graph.modify u.name fun w => { w with sources := ["data"] } } }
    have ht : ∀ m, t.graph.graph.vertices.find? m = if u.name = m then
        (s.graph.graph.vertices.find? m).map fun w => { w with sources := ["data"] }
        else s.graph.graph.vertices.find? m := fun m => Table.find?_modify ..
    refine ⟨_, t, vertex_eq_ok.mpr ⟨hw, rfl⟩, ?_, fun m => ?_, hs.order⟩
    · unfold sourced
      rw [if_pos (by simp [turned, hnil])]
      refine bind_ok rfl (vertex_eq_ok.mpr ⟨?_, rfl⟩)
      show t.graph.graph.vertices.find? u.name = _
      rw [ht, hw]
      simp [turned, hnil]
    · rw [ht, find?_fed]
      by_cases hm : u.name = m
      · subst hm
        rw [if_pos rfl, hw, hu]
        simp [turned, hnil]
      · rw [if_neg hm, if_neg hm]
        exact hs.renamed m
  · have hsame : turned g done true u = turned g done false u := by simp [turned, hnil]
    refine ⟨_, s, vertex_eq_ok.mpr ⟨hw, rfl⟩, ?_, hs.congr (fun m => ?_) rfl⟩
    · unfold sourced
      rw [if_neg (by simp [turned, hnil]), hsame]
      rfl
    · rw [find?_fed]
      by_cases hm : u.name = m
      · subst hm
        rw [find?_walked, hu]
        simp [hc, hsame]
      · rw [if_neg hm]

theorem layerLines_stands (hkey : c ∈ g.vertices.keys) (hc : c ∉ done) (hout : out c = c) :
    Triple (fun s => Stands (walked g done done) out s.graph) (do return (c, ← layerLines (← vertex c)))
      fun _ s => ∃ q, Stands (walked g (done ++ [c]) (done ++ [c])) (Graph.renameAt out c q) s.graph := by
  intro s hs b s' hrun
  obtain ⟨u, hu⟩ := Table.mem_keys_iff.mp hkey
  obtain ⟨w, t, hw, hsourced, ht⟩ := sourced_outcome hnamed hs hu hc
  replace hrun := (bind_ok hw rfl).symm.trans hrun
  obtain ⟨lines, s₂, hlines, hrun⟩ := step_cases hrun
  obtain ⟨-, rfl⟩ := pure_eq_ok.mp hrun
  replace hlines := (bind_ok hsourced rfl).symm.trans hlines
  obtain ⟨q, hq⟩ := code_stands t ht lines s₂ hlines
  have hname : (turned g done true u).name = c := hnamed c u hu
  rw [hout, hname] at hq
  exact ⟨q, hq.congr (find?_paddedAt hnamed hu rfl) (order_paddedAt _ (walked g (done ++ [c]) done)).symm⟩

omit hnamed in
def Walks (g : Graph Layer) (done : List String) (s : Scope) : Prop :=
  ∃ out, Stands (walked g done done) out s.graph ∧ ∀ m, m ∉ done → out m = m

theorem emitted_walks {todo : List String} (hkeys : ∀ m ∈ g.order, m ∈ g.vertices.keys) (hnodup : g.order.Nodup)
    (horder : g.order = done ++ todo) :
    Triple (Walks g []) (done.mapM fun m => do return (m, ← layerLines (← vertex m))) fun _ => Walks g done := by
  refine .mapM (I := fun done _ => Walks g done) fun pre c post body hsplit => ?_
  rintro s ⟨out, hs, hfresh⟩ b s' hrun
  rw [hsplit, append_assoc] at horder
  have hlisted : c ∈ g.order := by simp [horder]
  have hc := not_mem_done hnodup horder
  obtain ⟨q, hq⟩ := layerLines_stands hnamed (hkeys c hlisted) hc (hfresh c hc) s hs b s' hrun
  exact ⟨_, hq, Graph.fresh_renameAt hfresh c q⟩

end

/-! ## Names that have been replaced -/

theorem length_behindPad (var x : String) :
    x.length ≤ (behindPad var x).length ∧ (x = var → x.length < (behindPad var x).length) := by
  by_cases h : x = var
  · have hpos : 0 < "_pad".length := by decide
    simp [behindPad, h, hpos]
  · simp [behindPad, h]

theorem ledTo_cons (g : Graph Layer) (p c : String) (done : List String) (x : String) :
    ledTo g p (c :: done) x = ledTo g p done (if readsPadded g p c then behindPad (variableName c) x else x) := rfl

theorem length_ledTo (g : Graph Layer) (p : String) (done : List String) (x : String) :
    x.length ≤ (ledTo g p done x).length := by
  induction done generalizing x with
  | nil => exact Nat.le_refl _
  | cons c done ih =>
    rw [ledTo_cons]
    refine Nat.le_trans ?_ (ih _)
    split
    · exact (length_behindPad _ x).1
    · exact Nat.le_refl _

theorem ledTo_eq_iff {x : String} :
    ledTo g p done x = x ↔ ∀ c ∈ done, readsPadded g p c = true → variableName c ≠ x := by
  induction done with
  | nil => simp
  | cons c done ih =>
    by_cases hc : readsPadded g p c = true ∧ x = variableName c
    · -- the new name is longer, and names never get shorter again
      obtain ⟨hreads, hx⟩ := hc
      have hlen : x.length < (ledTo g p (c :: done) x).length := by
        rw [ledTo_cons, if_pos hreads]
        exact Nat.lt_of_lt_of_le ((length_behindPad _ x).2 hx) (length_ledTo g p done _)
      refine iff_of_false (fun h => ?_) fun h => h c (.head _) hreads hx.symm
      rw [h] at hlen
      exact Nat.lt_irrefl _ hlen
    · have hstep : ledTo g p (c :: done) x = ledTo g p done x := by
        rw [ledTo_cons]
        split
        · rename_i hreads
          rw [behindPad, if_neg fun hx => hc ⟨hreads, hx⟩]
        · rfl
      rw [hstep, ih, forall_mem_cons]
      exact (and_iff_right fun hreads hx => hc ⟨hreads, hx.symm⟩).symm

theorem map_ledTo_eq_iff {done targets : List String} :
    targets.map (ledTo g p done) = targets ↔ ∀ c ∈ done, readsPadded g p c = true → variableName c ∉ targets := by
  have hsame : targets.map (ledTo g p done) = targets ↔ ∀ x ∈ targets, ledTo g p done x = x := by
    conv_lhs => rhs; rw [← map_id targets]
    exact map_inj_left
  rw [hsame]
  constructor
  · intro h c hc hreads hmem
    exact ledTo_eq_iff.mp (h _ hmem) c hc hreads rfl
  · intro h x hx
    refine ledTo_eq_iff.mpr fun c hc hreads he => h c hc hreads ?_
    rwa [he]

/-! ## Layers that cannot be padded -/

section
variable {ps : List String}

theorem parent_first (hv : g.vertices.find? v.name = some v) (hsources : v.sources = p :: ps) :
    g.parent v.name [0] = (g.vertex p).map some := by
  have hstep : Graph.step .up v 0 = .ok (some p) := by
    rw [Graph.step, show Graph.Direction.up.next v = p :: ps from hsources]
    rfl
  rw [Graph.parent, Graph.follow, Graph.vertex_eq_ok.mpr hv]
  simp only [Graph.walk, hstep, Bool.false_eq_true, if_false]
  cases g.vertex p <;> rfl

theorem input_outcome_first (hv : s.graph.graph.vertices.find? v.name = some v) (hsources : v.sources = p :: ps) :
    (input v).outcome s = ((s.graph.graph.vertex p).map Vertex.variableName, s) := by
  have hparent := parent_first hv hsources
  cases hp : s.graph.graph.vertex p with
  | error f =>
    rw [hp] at hparent
    have hlift : (liftM (s.graph.graph.parent v.name [0]) : Emit (Option (Vertex Layer))).outcome s = (.error f, s)
      := by
      rw [hparent]
      rfl
    have hfails : (parent v.name).outcome s = (.error f, s) := by
      rw [parent, outcome_bind]
      show outcome _ s = _
      rw [outcome_bind, hlift]
    rw [input, outcome_bind, hfails]
    rfl
  | ok w =>
    rw [hp] at hparent
    have hfound : (parent v.name).outcome s = (.ok w, s) :=
      bind_ok rfl (lift_bind_ok hparent rfl)
    exact bind_ok hfound rfl

def LeadsAstray (g : Graph Layer) (p : String) : Prop := p ≠ "data" ∧ ∃ x ∈ g.targetsOf p, x ∉ g.order

theorem redirectAll_fails_iff {es : List String} (hnodup : es.Nodup)
    (hlisted : ∀ e ∈ es, e ≠ "data" → e ∈ g.order ∧ e ∈ g.vertices.keys) (horder : s.graph.graph.order = g.order)
    (hfind : ∀ e ∈ es, s.graph.graph.vertices.find? e = g.vertices.find? e) :
    ((es.forM (redirect v)).outcome s).1 = .error Fault.key ↔ ∃ e ∈ es, LeadsAstray g e := by
  induction es generalizing s with
  | nil => exact iff_of_false (fun h => by cases h) fun ⟨_, h, _⟩ => by cases h
  | cons e es ih =>
    obtain ⟨he, hrest⟩ := nodup_cons.mp hnodup
    rw [forall_mem_cons] at hlisted hfind
    show ((redirect v e >>= fun _ => es.forM (redirect v)).outcome s).1 = _ ↔ _
    rw [outcome_bind]
    simp only [mem_cons, exists_eq_or_imp]
    by_cases hdata : e = "data"
    · subst hdata
      rw [or_iff_right fun h => h.1 rfl]
      exact ih hrest hlisted.2 horder hfind.2
    obtain ⟨hin, hkey⟩ := hlisted.1 hdata
    obtain ⟨w, hw⟩ := Table.mem_keys_iff.mp hkey
    have htargets : g.targetsOf e = w.targets := Graph.targetsOf_of_find? hw
    rw [redirect_outcome hdata (horder ▸ hin) (hfind.1.trans hw), horder]
    by_cases hall : ∀ x ∈ w.targets, x ∈ g.order
    · rw [if_pos hall]
      have hfine : ¬LeadsAstray g e := by
        rintro ⟨-, x, hx, hnot⟩
        exact hnot (hall x (htargets ▸ hx))
      rw [or_iff_right hfine]
      refine ih hrest hlisted.2 horder fun e' he' => ?_
      have hne : e ≠ e' := by
        rintro rfl
        exact he he'
      exact (Table.find?_modify ..).trans ((if_neg hne).trans (hfind.2 e' he'))
    · rw [if_neg hall]
      refine iff_of_true rfl (.inl ⟨hdata, ?_⟩)
      rw [htargets]
      simpa using hall

theorem padLine_fails_iff (hv : s.graph.graph.vertices.find? v.name = some v) (hsources : v.sources = p :: ps)
    (hnodup : v.sources.Nodup)
    (hlisted : ∀ e ∈ v.sources, e ≠ "data" → e ∈ s.graph.graph.order ∧ e ∈ s.graph.graph.vertices.keys)
    (widths : List Int) (fill : String) : ((padLine v widths fill).outcome s).1 = .error Fault.key ↔
      p ∈ s.graph.graph.vertices.keys ∧ ∃ e ∈ v.sources, LeadsAstray s.graph.graph e := by
  unfold padLine
  rw [outcome_bind, input_outcome_first hv hsources]
  cases hp : s.graph.graph.vertices.find? p with
  | none =>
    rw [Graph.vertex, Table.get, hp]
    refine iff_of_false (fun h => by cases h) fun h => ?_
    exact Table.find?_eq_none_iff.mp hp h.1
  | some w =>
    rw [Graph.vertex_eq_ok.mpr hp, and_iff_right (Table.mem_keys_of_find? hp),
      ← redirectAll_fails_iff hnodup hlisted rfl fun _ _ => rfl]
    show ((v.sources.forM (redirect v) >>= _).outcome s).1 = _ ↔ _
    rw [outcome_bind]
    cases (v.sources.forM (redirect v)).outcome s with
    | mk r s' =>
      cases r with
      | error f => simp
      | ok u => exact iff_of_false (fun h => by cases h) fun h => by cases h

end

section
variable {g : Graph Layer} {out : String → String} {fed done : List String} {h : LayerGraph} {c : String}
  (hnamed : ∀ m u, g.vertices.find? m = some u → u.name = m)

include hnamed in
theorem Stands.targetsOf (hs : Stands (walked g fed done) out h) (p : String) :
    h.graph.targetsOf p = (g.targetsOf p).map (ledTo g p done) := by
  rw [Graph.targetsOf, Graph.targetsOf, hs.renamed p, find?_walked]
  cases hu : g.vertices.find? p with
  | none => rfl
  | some u =>
    obtain rfl := hnamed p u hu
    rfl

theorem Stands.mem_keys_iff (hs : Stands (walked g fed done) out h) :
    p ∈ h.graph.vertices.keys ↔ p ∈ g.vertices.keys := by
  rw [Table.mem_keys_iff, Table.mem_keys_iff, hs.renamed p, find?_walked]
  cases g.vertices.find? p <;> simp

include hnamed in
theorem Stands.leadsAstray_iff (hs : Stands (walked g fed done) out h) :
    LeadsAstray h.graph p ↔ p ≠ "data" ∧ ∃ x ∈ g.targetsOf p, ledTo g p done x ∉ g.order := by
  have horder : h.graph.order = g.order := hs.order
  rw [LeadsAstray, hs.targetsOf hnamed, horder]
  simp

include hnamed in
theorem padLine_at_turn {rest : List String} (hm : g.Mirrored) (hprec : g.Preceded g.order)
    (hkeys : ∀ m ∈ g.order, m ∈ g.vertices.keys) (hnodup : g.order.Nodup) (horder : g.order = done ++ c :: rest)
    (hs : Walks g done s) : ∃ u v t, (vertex c).outcome s = (.ok u, s) ∧ (sourced u).outcome s = (.ok v, t) ∧
      ∀ widths fill, ((padLine v widths fill).outcome t).1 = .error Fault.key ↔
        ∃ p ∈ g.sourcesOf c, p ≠ "data" ∧ ∃ x ∈ g.targetsOf p, ledTo g p done x ∉ g.order := by
  obtain ⟨out, hs, -⟩ := hs
  obtain ⟨u, hu⟩ := Table.mem_keys_iff.mp (hkeys c (by simp [horder]))
  obtain ⟨w, t, hw, hsourced, ht⟩ := sourced_outcome hnamed hs hu (not_mem_done hnodup horder)
  obtain rfl := hnamed c u hu
  generalize hv : { turned g done true u with outputName := out u.name } = v at hsourced
  have hfind : t.graph.graph.vertices.find? v.name = some v := by
    rw [← hv]
    refine (ht.renamed u.name).trans ?_
    rw [find?_fed, if_pos rfl, hu]
    rfl
  have hsame : v.sources = if u.sources.isEmpty then ["data"] else u.sources := by rw [← hv]; rfl
  refine ⟨w, v, t, hw, hsourced, fun widths fill => ?_⟩
  rw [Graph.sourcesOf_of_find? hu]
  cases hsources : u.sources with
  | nil =>
    replace hsame : v.sources = ["data"] := by rw [hsame, hsources]; rfl
    rw [padLine_fails_iff hfind hsame (hsame ▸ List.nodup_singleton _)]
    · refine iff_of_false ?_ (by simp)
      rintro ⟨-, e, he, hne, -⟩
      exact hne (List.mem_singleton.mp (hsame ▸ he))
    · intro e he hne
      exact absurd (List.mem_singleton.mp (hsame ▸ he)) hne
  | cons p ps =>
    have hfeeds : g.sourcesOf u.name = p :: ps := (Graph.sourcesOf_of_find? hu).trans hsources
    have hkey : ∀ e ∈ p :: ps, e ∈ t.graph.graph.vertices.keys := by
      intro e he
      rw [← hfeeds] at he
      exact ht.mem_keys_iff.mpr (Graph.mem_keys_of_feeds hm he)
    have hlisted : ∀ e ∈ p :: ps, e ∈ t.graph.graph.order := by
      intro e he
      rw [ht.order, show (walked g (done ++ [u.name]) done).order = g.order from rfl, horder]
      exact List.mem_append_left _ (hprec done u.name rest horder e (hfeeds ▸ he))
    replace hsame : v.sources = p :: ps := by rw [hsame, hsources]; rfl
    have hdistinct : v.sources.Nodup := by
      rw [hsame, ← hfeeds]
      exact hm.sources_nodup u.name
    rw [padLine_fails_iff hfind hsame hdistinct, hsame]
    · rw [and_iff_right (hkey p (.head _))]
      simp only [ht.leadsAstray_iff hnamed]
    · intro e he _
      rw [hsame] at he
      exact ⟨hlisted e he, hkey e he⟩

end

/-- After the layers `done` have been written, each source has the names of its targets that `ledTo` gives; they
are the old ones exactly if none of these layers is padded and has its variable's name among the targets of a
source. The next layer can be padded unless one of its sources then leads to a name outside the order. -/
theorem padding_redirects (n : Network) (w : Option Weights) (phase : String) (done todo : List String)
    (body : List (String × List Line)) (s : Scope) (horder : (graphOf n).order = done ++ todo)
    (hrun : (done.mapM fun m => do return (m, ← layerLines (← vertex m))).outcome (startScope n w phase) =
      (.ok body, s)) :
    (∀ p, p ∈ s.graph.graph.vertices.keys ↔ p ∈ (graphOf n).vertices.keys) ∧
    (∀ p, s.graph.graph.targetsOf p =
      ((graphOf n).targetsOf p).map (ledTo (graphOf n) p done)) ∧
    (∀ p, s.graph.graph.targetsOf p = (graphOf n).targetsOf p ↔
      ∀ c ∈ done, readsPadded (graphOf n) p c = true →
        variableName c ∉ (graphOf n).targetsOf p) ∧
    ∀ c rest, todo = c :: rest → ∃ u v t, (vertex c).outcome s = (.ok u, s) ∧
      (sourced u).outcome s = (.ok v, t) ∧
      ∀ widths fill, ((padLine v widths fill).outcome t).1 = .error Fault.key ↔
        ∃ p ∈ (graphOf n).sourcesOf c, p ≠ "data" ∧
          ∃ x ∈ (graphOf n).targetsOf p,
            ledTo (graphOf n) p done x ∉ (graphOf n).order := by
  have hm := LayerGraph.mirrored_graphOf n
  have hnamed : ∀ m u, (graphOf n).vertices.find? m = some u → u.name = m :=
    fun m u hu => (LayerGraph.find?_graphOf hu).2.2.1
  have hkeys : ∀ m ∈ (graphOf n).order, m ∈ (graphOf n).vertices.keys :=
    fun _ => LayerGraph.mem_keys_of_order_graphOf
  have hnodup := LayerGraph.nodup_order_graphOf n
  have hstart : Walks (graphOf n) [] (startScope n w phase) := by
    have hstands : Stands (graphOf n) id (startScope n w phase).graph := ⟨LayerGraph.renamed_graphOf n, rfl⟩
    exact ⟨id, hstands.congr (find?_walked_nil _) rfl, fun _ _ => rfl⟩
  obtain ⟨out, hs, hfresh⟩ := emitted_walks hnamed hkeys hnodup horder _ hstart body s hrun
  refine ⟨fun p => hs.mem_keys_iff, hs.targetsOf hnamed, fun p => ?_, fun c rest hnext => ?_⟩
  · rw [hs.targetsOf hnamed]
    exact map_ledTo_eq_iff
  · subst hnext
    exact padLine_at_turn hnamed hm (LayerGraph.preceded_order_graphOf n) hkeys hnodup horder ⟨out, hs, hfresh⟩

def sidePadded (name : String) : Layer where
  name := name
  op := "Pool"
  inputs := ["x"]
  attrs := .ofList [("_output_shapes", .list { shapes := [[1, 4, 4, 1]] }),
    ("pads", .list { ints := [0, 0, 0, 0, 0, 1, 1, 0] }), ("pooling_type", .text [77, 65, 88]),
    ("kernel_shape", .list { ints := [1, 2, 2, 1] }), ("strides", .list { ints := [1, 1, 1, 1] })]

def paddedPair : Network where
  layers := [{ name := "x", op := "DataInput", attrs := .ofList [("shape", .shape [1, 4, 4, 1])] },
    sidePadded "a", sidePadded "b"]

theorem padding_redirects_pair : (graphOf paddedPair).order = ["x", "a"] ++ ["b"] ∧
    ∃ body s, (["x", "a"].mapM fun m => do return (m, ← layerLines (← vertex m))).outcome
        (startScope paddedPair none "test") = (.ok body, s) ∧
      s.graph.graph.targetsOf "x" = ["a_pad", "b"] ∧ "a_pad" ∉ s.graph.graph.vertices.keys ∧
      ∃ u v t, (vertex "b").outcome s = (.ok u, s) ∧ (sourced u).outcome s = (.ok v, t) ∧
        ∀ widths fill, ((padLine v widths fill).outcome t).1 = .error Fault.key := by
  obtain ⟨body, s, hrun⟩ : ∃ body s, (["x", "a"].mapM fun m => do return (m, ← layerLines (← vertex m))).outcome
      (startScope paddedPair none "test") = (.ok body, s) := ⟨_, _, rfl⟩
  have horder : (graphOf paddedPair).order = ["x", "a"] ++ ["b"] := by decide
  obtain ⟨hkeys, htargets, -, hnext⟩ := padding_redirects paddedPair none "test" _ _ body s horder hrun
  obtain ⟨u, v, t, hu, hv, hfails⟩ := hnext "b" [] rfl
  refine ⟨horder, body, s, hrun, (htargets "x").trans (by decide), fun h => ?_, u, v, t, hu, hv, fun widths fill => ?_⟩
  · exact absurd ((hkeys _).mp h) (by decide)
  · exact (hfails widths fill).mpr ⟨"x", by decide, by decide, "a", by decide, by decide⟩

theorem second_pad_fails :
    (∃ body s, (["x", "a"].mapM fun m => do return (m, ← layerLines (← vertex m))).outcome
        (startScope paddedPair none "test") = (.ok body, s) ∧
      "a_pad" ∈ s.graph.graph.targetsOf "x" ∧ "a_pad" ∉ s.graph.graph.vertices.keys) ∧
    ((CodeTarget.code "" .mxnet).outcome (startScope paddedPair none "test")).1 = .error Fault.key :=
  ⟨⟨_, _, rfl, by decide, by decide⟩, rfl⟩

end NetBridge.Target.MxNet
