import NetBridge.Code.Emitter
import NetBridge.Proofs.NetworkGraph
import NetBridge.Proofs.RunSteps

/-!
# Steps of code generation

Most steps of code generation leave the graph, the log and the phase as they are (`At`), and many the whole scope
(`Looks`). The lines of all layers come from one walk in the order of the graph (`emitAll_walk`).
-/

namespace NetBridge

namespace Code

open Run LayerGraph
open LayerGraph (graphOf)

/-! ## Operands of a line -/

@[simp] theorem reads_assign (indent : Nat) (target : String) (body : List Piece) :
    (Line.assign indent target body).reads = body.filterMap Piece.operand? := rfl

@[simp] theorem operand?_text (s : String) : (Piece.text s).operand? = none := rfl

@[simp] theorem operand?_use (n : String) : (Piece.use n).operand? = some n := rfl

@[simp] theorem filterMap_operands (sep : String) (ns : List String) :
    (operands sep ns).filterMap Piece.operand? = ns := by
  induction ns with
  | nil => rfl
  | cons n ns ih =>
    cases ns with
    | nil => rfl
    | cons m ns =>
      rw [show operands sep (n :: m :: ns) = .use n :: .text sep :: operands sep (m :: ns) from rfl,
        List.filterMap_cons_some (operand?_use n), List.filterMap_cons_none (operand?_text sep), ih]

/-! ## Variables -/

variable {m : String}

theorem of_mem_variableName {c : Char} (h : c ∈ (variableName m).toList) : c ≠ '/' ∧ c ≠ '-' := by
  rw [variableName, String.toList_ofList] at h
  obtain ⟨d, -, rfl⟩ := List.mem_map.mp h
  split
  · decide
  · rename_i hd
    simpa using hd

theorem variableName_eq_self (h : ∀ c ∈ m.toList, c ≠ '/' ∧ c ≠ '-') : variableName m = m := by
  have hmap : m.toList.map (fun c => if c = '/' || c = '-' then '_' else c) = m.toList := by
    refine (List.map_congr_left fun c hc => ?_).trans (List.map_id _)
    simp [h c hc]
  rw [variableName, hmap, String.ofList_toList]

/-! ## Steps that only look -/

structure At (g : LayerGraph) (log : List String) (phase : String) (s : Scope) : Prop where
  graph : s.graph = g
  log : s.log = log
  phase : s.phase = phase

def SourceVariable (g : Graph Layer) (v : Vertex Layer) (x : String) : Prop :=
  ∃ p w, p ∈ g.sourcesOf v.name ∧ g.vertices.find? p = some w ∧ x = w.variableName

section
variable {g : LayerGraph} {log : List String} {phase : String}

theorem keeps_need (helper : String) : Keeps (At g log phase) (need helper) :=
  .modify fun _ hs => ⟨hs.graph, hs.log, hs.phase⟩

theorem say_spec (line : String) : Triple (At g log phase) (say line) fun _ => At g (log ++ [line]) phase :=
  .modify fun _ hs => ⟨hs.graph, by rw [hs.log], hs.phase⟩

theorem layers_spec : Gets (At g log phase) layers fun h => h = g.graph := by
  refine .bind (Q := fun t s => At g log phase s ∧ t.graph = g) (.get fun s hs => ⟨hs, hs.graph⟩)
    fun t => .pure fun s hs => ⟨hs.1, by rw [hs.2]⟩

theorem vertex_spec (n : String) : Gets (At g log phase) (vertex n)
    fun v => g.graph.vertices.find? n = some v := by
  refine .bind_of layers_spec fun h hh => .lift fun v hv s hs => ⟨hs, ?_⟩
  rw [hh] at hv
  exact Graph.vertex_eq_ok.mp hv

theorem parent_spec (n : String) : Gets (At g log phase) (parent n) fun w => ∃ v p,
    g.graph.vertices.find? n = some v ∧ v.sources.head? = some p ∧
      g.graph.vertices.find? p = some w := by
  refine .bind_of layers_spec fun h hh => ?_
  refine .bind_of (.lift fun r hr s hs => ⟨hs, hr⟩) fun r hr => ?_
  cases r with
  | none => exact .throw
  | some w =>
    refine .pure fun s hs => ⟨hs, ?_⟩
    rw [hh] at hr
    exact Graph.parent_eq_ok hr

theorem input_spec (v : Vertex Layer) : Gets (At g log phase) (input v)
    fun x => SourceVariable g.graph v x := by
  refine .bind_of (parent_spec v.name) fun w hw => .pure fun s hs => ⟨hs, ?_⟩
  obtain ⟨u, p, hu, hp, hw⟩ := hw
  exact ⟨p, w, by rw [Graph.sourcesOf_of_find? hu]; exact List.mem_of_head? hp, hw, rfl⟩

theorem variableNames_spec (names : List String) : Gets (At g log phase) (variableNames names)
    fun xs => ∀ x ∈ xs, ∃ n ∈ names, ∃ w,
      g.graph.vertices.find? n = some w ∧ x = w.variableName := by
  have hloop := Triple.mapM (f := fun n => do return (← vertex n).variableName) (l := names)
    (I := fun done xs s => At g log phase s ∧ ∀ x ∈ xs, ∃ n ∈ done, ∃ w,
      g.graph.vertices.find? n = some w ∧ x = w.variableName) ?_
  · exact hloop.pre fun s hs => ⟨hs, fun x hx => by cases hx⟩
  · rintro done n todo xs - s ⟨hs, hxs⟩
    refine (Triple.bind_of (vertex_spec n) fun w hw => .pure fun t ht => ⟨ht, fun x hx => ?_⟩) s hs
    rcases List.mem_append.mp hx with hx | hx
    · obtain ⟨m, hm, h⟩ := hxs x hx
      exact ⟨m, List.mem_append_left _ hm, h⟩
    · rw [List.mem_singleton] at hx
      exact ⟨n, by simp, w, hw, hx⟩

theorem inputs_spec {v : Vertex Layer} (hv : g.graph.vertices.find? v.name = some v) :
    Gets (At g log phase) (inputs v)
      fun xs => ∀ x ∈ xs, SourceVariable g.graph v x := by
  refine (variableNames_spec v.sources).post fun xs s hs => ⟨hs.1, fun x hx => ?_⟩
  obtain ⟨p, hp, w, hw, he⟩ := hs.2 x hx
  exact ⟨p, w, by rwa [Graph.sourcesOf_of_find? hv], hw, he⟩

theorem skip_spec (v : Vertex Layer) : Triple (At g log phase) (skip v) fun _ s =>
    ∃ u p w, g.graph.vertices.find? v.name = some u ∧ u.sources.head? = some p ∧
      g.graph.vertices.find? p = some w ∧
      At { g with graph := g.graph.modify v.name fun u => { u with outputName := w.outputName } } log
        phase s := by
  refine .bind_of (parent_spec v.name) fun w hw => .modify fun s hs => ?_
  obtain ⟨u, p, hu, hp, hw⟩ := hw
  exact ⟨u, p, w, hu, hp, hw, by rw [hs.graph], hs.log, hs.phase⟩

end

/-! ## Steps that leave the scope as it is -/

instance : Looks layers := by unfold layers; infer_instance

section
variable (v : Vertex Layer) (name : String)

instance : Looks (vertex name) := by unfold vertex; infer_instance

instance (path : List Int) : Looks (parent name path) := by
  have hrest (o : Option (Vertex Layer)) : Looks (match o with
      | some v => pure v
      | none => throw Fault.property : Emit (Vertex Layer)) := by
    cases o <;> infer_instance
  unfold parent
  infer_instance

instance (i : Int) : Looks (input v i) := by unfold input; infer_instance

instance : Looks (inputs v) := by unfold inputs variableNames; infer_instance

instance (default : Value) : Looks (shown v name default) := by unfold shown; infer_instance

instance : Looks (layerWeights name) := by unfold layerWeights; infer_instance

instance (layer : String) : Looks (weight layer name) := by
  refine .step fun _ => .step fun _ => ?_
  split <;> infer_instance

instance : Looks (ints v name) := by unfold ints; infer_instance

instance : Looks (padPairs v) := by unfold padPairs; infer_instance

instance : Looks (autoPad? v) := by unfold autoPad?; infer_instance

instance : Looks (outputShape v) := by unfold outputShape; split <;> infer_instance

instance : Looks (outputShapeValue v) := by
  refine .step fun _ => .step fun _ => ?_
  split <;> infer_instance

instance : Looks (elementType v) := by unfold elementType; split <;> infer_instance

instance (fuel : Nat) : Looks (unflattened fuel v) := by
  induction fuel generalizing v with
  | zero => unfold unflattened; infer_instance
  | succ fuel ih => unfold unflattened; infer_instance

instance : Looks (denseSource v) := by unfold denseSource; infer_instance

instance : Looks (denseMatrix v) := by unfold denseMatrix; infer_instance

end

section
variable {s : Scope}

theorem say_known {line : String} : Triple (· = s) (say line) fun _ s' => s' = { s with log := s.log ++ [line] } :=
  .modify fun _ ht => by rw [ht]

variable {n : String}

theorem parent_known : Triple (· = s) (parent n) fun w s' => s' = s ∧
    ∃ v p, s.graph.graph.vertices.find? n = some v ∧ v.sources.head? = some p ∧
      s.graph.graph.vertices.find? p = some w := by
  intro t ht w s' h
  subst ht
  exact ⟨keeps_looking (P := (· = t)) t rfl w s' h, (parent_spec n t ⟨rfl, rfl, rfl⟩ w s' h).2⟩

theorem vertex_known : Triple (· = s) (vertex n) fun v s' => s' = s ∧ s.graph.graph.vertices.find? n = some v := by
  intro t ht v s' h
  subst ht
  exact ⟨keeps_looking (P := (· = t)) t rfl v s' h, (vertex_spec n t ⟨rfl, rfl, rfl⟩ v s' h).2⟩

end

/-! ## The walk over all layers -/

/-- The turn of a layer, after those of its sources. Its output still has the name of the layer. -/
structure Due (n : Network) (done : List String) (out : String → String) (body : List (String × List Line))
    (v : Vertex Layer) (s : Scope) : Prop where
  vertex : (graphOf n).vertices.find? v.name = some v
  new : v.name ∉ done
  fresh : ∀ m, m ∉ done → out m = m
  listed : ∀ m ∈ done ++ [v.name], m ∈ (graphOf n).order
  sources : ∀ m ∈ done ++ [v.name], ∀ p ∈ (graphOf n).sourcesOf m, p ∈ done
  walked : body.map (·.1) = done
  renamed : (graphOf n).Renamed out s.graph.graph
  found : s.graph.graph.vertices.find? v.name = some v

theorem emitAll_walk {n : Network} {rule : LayerRule}
    {I : List String → (String → String) → List (String × List Line) → Scope → Prop} {s₀ s : Scope}
    {body : List (String × List Line)} (hgraph : s₀.graph.graph = graphOf n) (hstart : I [] id [] s₀)
    (hstep : ∀ done out body v s ls t, Due n done out body v s → I done out body s →
      (rule v).outcome s = (.ok ls, t) → ∃ q, (graphOf n).Renamed (Graph.renameAt out v.name q) t.graph.graph ∧
        I (done ++ [v.name]) (Graph.renameAt out v.name q) (body ++ [(v.name, ls)]) t)
    (h : (emitAll rule).outcome s₀ = (.ok body, s)) : body.map (·.1) = (graphOf n).order ∧
      ∃ out, (graphOf n).Renamed out s.graph.graph ∧ I (graphOf n).order out body s := by
  obtain ⟨g, _, ⟨⟩, h⟩ := step_cases h
  rw [hgraph] at h
  have hloop := Triple.mapM (f := fun m => do return (m, ← rule (← vertex m))) (l := (graphOf n).order)
    (I := fun done body s => body.map (·.1) = done ∧ ∃ out, (graphOf n).Renamed out s.graph.graph ∧
      I done out body s ∧ ∀ m, m ∉ done → out m = m) ?_
  · obtain ⟨hwalked, out, hr, hI, -⟩ := hloop s₀ ⟨rfl, id, hgraph ▸ renamed_graphOf n, hstart, fun _ _ => rfl⟩ body s h
    exact ⟨hwalked, out, hr, hI⟩
  · rintro done m todo body e s ⟨hwalked, out, hr, hI, hfresh⟩
    refine (Triple.bind_of vertex_known fun v hv => ?_) s rfl
    obtain ⟨u, hu, rfl⟩ := hr.of_find? hv
    obtain ⟨-, -, rfl, hout⟩ := find?_graphOf hu
    have hnew := not_mem_done (nodup_order_graphOf n) e
    have hsame : { u with outputName := out u.name } = u :=
      congrArg (fun q => { u with outputName := q }) ((hfresh u.name hnew).trans hout.symm)
    rw [hsame] at hv ⊢
    have hdue : Due n done out body u s := by
      refine ⟨hu, hnew, hfresh, fun m hm => ?_, fun m hm p => (preceded_order_graphOf n).source_mem e hm, hwalked,
        hr, hv⟩
      rw [e, List.append_cons]
      exact List.mem_append_left _ hm
    refine .bind (fun t ht ls t' hrun => hstep _ _ _ _ _ _ _ hdue hI (ht ▸ hrun)) fun ls => .pure ?_
    rintro t ⟨q, hq, hI'⟩
    exact ⟨by simp [hwalked], _, hq, hI', Graph.fresh_renameAt hfresh u.name q⟩

end Code

end NetBridge
