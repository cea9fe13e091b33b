import NetBridge.Proofs.CodeFrame
import NetBridge.Proofs.AxisOrders
import NetBridge.Proofs.TensorFlowCode

/-!
# Operands of layers that merge their inputs

A merging layer is one line of code that reads the variables of its sources, in order. A graph knows a source once,
however often the layer names it. The variables of the sources are final at its turn (`Merging`).
-/

namespace NetBridge

open Graph List LayerGraph

def Graph.variableOf {α : Type} (g : Graph α) (n : String) : String :=
  (g.vertices.find? n).elim "" Vertex.variableName

theorem Graph.Renamed.variableOf {α : Type} {g g' : Graph α} {out : String → String} (h : g.Renamed out g')
    {n : String} (hn : n ∈ g.vertices.keys) : g'.variableOf n = variableName (out n) := by
  obtain ⟨v, hv⟩ := Table.mem_keys_iff.mp hn
  rw [Graph.variableOf, h n, hv]
  rfl

variable {t : CodeTarget} {r : LayerRule}

namespace Target

open Code Run
open LayerGraph (graphOf)

def merging : List String := ["Add", "Sub", "Mul", "Concat"]

def CodeTarget.layerRule? : CodeTarget → Option LayerRule
  | .cntk => some (ruleOr "CntkEmitter" Cntk.rule)
  | .pytorch => some (ruleOr "Pytorch Emitter" PyTorch.rule)
  | .tensorflow => some (ruleOr "TensorflowEmitter" TensorFlow.rule)
  | _ => none

def CodeTarget.LeavesOut (t : CodeTarget) (op : String) (sources : List String) : Prop :=
  t = .cntk ∧ op ≠ "Concat" ∧ sources.length ≤ 1

def OneLine (k : String) (operands : List String) (ls : List Line) : Prop :=
  ∃ line, ls = [line] ∧ line.target = some (variableName k) ∧ line.reads = operands

section
variable {g : LayerGraph} {v : Vertex Layer}

theorem inputs_variables (v : Vertex Layer) : Triple (fun s => s.graph = g) (inputs v)
    fun xs s => s.graph = g ∧ xs = v.sources.map g.graph.variableOf := by
  refine (Triple.mapM (I := fun done xs (s : Scope) => s.graph = g ∧ xs = done.map g.graph.variableOf) ?_).imp
    (fun s hs => ⟨hs, rfl⟩) fun _ _ h => h
  rintro done n todo xs - s ⟨hs, hxs⟩
  have hat : At g s.log s.phase s := ⟨hs, rfl, rfl⟩
  refine (Triple.bind_of (vertex_spec n) fun w hw => .pure fun t ht => ⟨ht.graph, ?_⟩) s hat
  simp [hxs, variableOf, hw]

theorem oneLine_assign (hname : v.outputName = v.name) {indent : Nat} {body : List Piece} {xs : List String}
    (hbody : body.filterMap Piece.operand? = xs) : OneLine v.name xs [.assign indent v.variableName body] := by
  refine ⟨_, rfl, ?_, hbody⟩
  rw [← hname]
  rfl

theorem oneLine_of_inputs (hname : v.outputName = v.name) {indent : Nat} {body : List String → List Piece}
    (hbody : ∀ xs, (body xs).filterMap Piece.operand? = xs) :
    Triple (fun s => s.graph = g) (do return [.assign indent v.variableName (body (← inputs v))])
      fun ls s => s.graph = g ∧ OneLine v.name (v.sources.map g.graph.variableOf) ls := by
  refine (inputs_variables v).bind fun xs => .pure fun s hs => ⟨hs.1, oneLine_assign hname ?_⟩
  rw [← hs.2]
  exact hbody xs

def Merges (t : CodeTarget) (v : Vertex Layer) (var : String → String) (ls : List Line) : Prop :=
  (t.LeavesOut v.item.op v.sources → ls = []) ∧
    (¬ t.LeavesOut v.item.op v.sources → OneLine v.name (v.sources.map var) ls)

theorem filterMap_bracketed (xs : List String) {pre post : List Piece} (hpre : pre.filterMap Piece.operand? = [])
    (hpost : post.filterMap Piece.operand? = []) :
    (pre ++ operands ", " xs ++ post).filterMap Piece.operand? = xs := by
  rw [filterMap_append, filterMap_append, hpre, hpost, filterMap_operands, nil_append,
    append_nil]

theorem tensorflow_merges (hname : v.outputName = v.name) (hop : v.item.op ∈ merging) :
    Triple (fun s => s.graph = g) (ruleOr "TensorflowEmitter" TensorFlow.rule v)
      fun ls s => s.graph = g ∧ OneLine v.name (v.sources.map g.graph.variableOf) ls := by
  unfold ruleOr
  simp only [merging, mem_cons, not_mem_nil, or_false] at hop
  rcases hop with h | h | h | h <;> rw [h]
  iterate 3
    · exact oneLine_of_inputs hname (filterMap_operands _)
  · exact oneLine_of_inputs hname fun xs => filterMap_bracketed xs rfl rfl

theorem pytorch_merges (hname : v.outputName = v.name) (hop : v.item.op ∈ merging) :
    Triple (fun s => s.graph = g) (ruleOr "Pytorch Emitter" PyTorch.rule v)
      fun ls s => s.graph = g ∧ OneLine v.name (v.sources.map g.graph.variableOf) ls := by
  unfold ruleOr
  simp only [merging, mem_cons, not_mem_nil, or_false] at hop
  rcases hop with h | h | h | h <;> rw [h]
  iterate 3
    · exact oneLine_of_inputs hname (filterMap_operands _)
  · refine keeps_graph.bind fun _ => keeps_graph.bind fun _ => keeps_graph.bind fun axis => ?_
    exact oneLine_of_inputs hname fun xs => filterMap_bracketed xs rfl rfl

theorem cntk_combined (hname : v.outputName = v.name) (operator : String) :
    Triple (fun s => s.graph = g) (Cntk.combined operator v) fun ls s => s.graph = g ∧
      if v.sources.length ≤ 1 then ls = [] else OneLine v.name (v.sources.map g.graph.variableOf) ls := by
  unfold Cntk.combined
  by_cases h : v.sources.length ≤ 1
  · rw [if_neg (by omega)]
    simp only [if_pos h]
    exact .pure fun s hs => ⟨hs, rfl⟩
  · rw [if_pos (by omega)]
    simp only [if_neg h]
    exact oneLine_of_inputs hname (filterMap_operands _)

theorem cntk_concat (hname : v.outputName = v.name) : Triple (fun s => s.graph = g) (Cntk.concat v)
    fun ls s => s.graph = g ∧ OneLine v.name (v.sources.map g.graph.variableOf) ls := by
  refine (inputs_variables v).bind fun xs => .bind keeps_lift fun _ => .bind keeps_lift fun axis => ?_
  refine .pure fun s hs => ⟨hs.1, oneLine_assign hname ?_⟩
  rw [← hs.2]
  exact filterMap_bracketed xs rfl rfl

theorem cntk_merges (hname : v.outputName = v.name) (hop : v.item.op ∈ merging) :
    Triple (fun s => s.graph = g) (ruleOr "CntkEmitter" Cntk.rule v)
      fun ls s => s.graph = g ∧ Merges .cntk v g.graph.variableOf ls := by
  have hcombined : ∀ operator, v.item.op ≠ "Concat" → Triple (fun s => s.graph = g) (Cntk.combined operator v)
      fun ls s => s.graph = g ∧ Merges .cntk v g.graph.variableOf ls := by
    intro operator hne
    refine (cntk_combined hname operator).post fun ls s hs => ⟨hs.1, fun hout => ?_, fun hout => ?_⟩
    · exact (if_pos hout.2.2).mp hs.2
    · exact (if_neg fun hle => hout ⟨rfl, hne, hle⟩).mp hs.2
  unfold ruleOr
  simp only [merging, mem_cons, not_mem_nil, or_false] at hop
  rcases hop with h | h | h | h <;> simp only [h]
  iterate 3
    · exact hcombined _ (by simp [h])
  · refine (cntk_concat hname).post fun ls s hs => ⟨hs.1, fun hout => ?_, fun _ => hs.2⟩
    exact absurd h hout.2.1

theorem merging_spec (hr : t.layerRule? = some r) (hname : v.outputName = v.name) (hop : v.item.op ∈ merging) :
    Triple (fun s => s.graph = g) (r v) fun ls s => s.graph = g ∧ Merges t v g.graph.variableOf ls := by
  cases t <;> cases hr
  · exact cntk_merges hname hop
  · refine (pytorch_merges hname hop).post fun ls s hs => ⟨hs.1, fun hout => ?_, fun _ => hs.2⟩
    cases hout.1
  · refine (tensorflow_merges hname hop).post fun ls s hs => ⟨hs.1, fun hout => ?_, fun _ => hs.2⟩
    cases hout.1

theorem layerRule_local (hr : t.layerRule? = some r) (v : Vertex Layer) : Local v.name (r v) := by
  cases t <;> cases hr
  · exact local_ruleOr (fun _ _ h => Cntk.rule_local h) _
  · exact local_ruleOr (fun _ _ h => PyTorch.rule_local h) _
  · exact local_ruleOr (fun _ _ h => TensorFlow.rule_local h) _

end

/-! ## All layers -/

def Merging (t : CodeTarget) (g : Graph Layer) (out : String → String) (body : List (String × List Line)) : Prop :=
  ∀ e ∈ body, ∀ v, g.vertices.find? e.1 = some v → v.item.op ∈ merging → Merges t v (fun a => variableName (out a)) e.2

theorem Merges.congr {v : Vertex Layer} {var var' : String → String} {ls : List Line}
    (h : Merges t v var ls) (he : ∀ a ∈ v.sources, var a = var' a) : Merges t v var' ls := by
  refine ⟨h.1, fun hout => ?_⟩
  rw [← map_congr_left he]
  exact h.2 hout

theorem emitAll_merging (hr : t.layerRule? = some r) {n : Network} {w : Option Weights} {phase : String}
    {body : List (String × List Line)} {s : Scope} (h : (emitAll r).outcome (startScope n w phase) = (.ok body, s)) :
    body.map (·.1) = (graphOf n).order ∧ ∃ out, (graphOf n).Renamed out s.graph.graph ∧
      Merging t (graphOf n) out body := by
  refine emitAll_walk (I := fun _ out body _ => Merging t (graphOf n) out body) rfl nofun ?_ h
  intro done out body v s ls s' hd hm hrun
  obtain ⟨q, hq⟩ := layerRule_local hr v (graphOf n) out s hd.renamed ls s' hrun
  -- sources come before their readers, so the new name is that of no source so far
  have hsame : ∀ m ∈ done ++ [v.name], ∀ u, (graphOf n).vertices.find? m = some u → ∀ a ∈ u.sources,
      variableName (out a) = variableName (renameAt out v.name q a) := by
    intro m hm u hu a ha
    have hne : a ≠ v.name := by
      rintro rfl
      exact hd.new (hd.sources m hm _ (by rwa [sourcesOf_of_find? hu]))
    rw [renameAt_of_ne out q hne]
  refine ⟨q, hq, fun e he u hu hop => ?_⟩
  rcases mem_append.mp he with he | he
  · have hdone : e.1 ∈ done := hd.walked ▸ mem_map_of_mem he
    exact (hm e he u hu hop).congr (hsame e.1 (mem_append_left _ hdone) u hu)
  · obtain rfl := mem_singleton.mp he
    cases hd.vertex.symm.trans hu
    have hmerges := (merging_spec hr (find?_graphOf hu).2.2.2 hop s rfl ls s' hrun).2
    refine (hmerges.congr fun a ha => hd.renamed.variableOf ?_).congr (hsame v.name (by simp) v hu)
    rw [← sourcesOf_of_find? hu] at ha
    exact mem_keys_of_feeds (mirrored_graphOf n) ha

/-! ## The code of a network -/

theorem append_regroup (a b c d e : String) : a ++ b ++ c ++ d ++ e = a ++ b ++ (c ++ d ++ e) := by
  simp only [String.append_assoc]

theorem code_body (hr : t.layerRule? = some r) {file text : String}
    {s₀ s : Scope} (h : (t.code file).outcome s₀ = (.ok text, s)) :
    ∃ body s₁ before after, (emitAll r).outcome s₀ = (.ok body, s₁) ∧
      text = before ++ render (allLines body) ++ after := by
  cases t <;> cases hr
  · obtain ⟨body, s₁, hbody, h⟩ := step_cases h
    obtain ⟨last, s₂, -, h⟩ := step_cases h
    obtain ⟨helpers, s₃, -, h⟩ := step_cases h
    obtain ⟨rfl, -⟩ := pure_eq_ok.mp h
    exact ⟨body, s₁, _, _, hbody, append_regroup ..⟩
  · obtain ⟨u, _, ⟨⟩, h⟩ := step_cases h
    obtain ⟨_, s₀', hloaded, h⟩ := step_cases h
    obtain rfl := keeps_require s₀ rfl _ s₀' hloaded
    obtain ⟨body, s₁, hbody, h⟩ := step_cases h
    obtain ⟨last, s₂, -, h⟩ := step_cases h
    obtain ⟨helpers, s₃, -, h⟩ := step_cases h
    obtain ⟨end₀, s₄, -, h⟩ := step_cases h
    obtain ⟨rfl, -⟩ := pure_eq_ok.mp h
    exact ⟨body, s₁, _, _, hbody, append_regroup ..⟩
  · obtain ⟨body, last, helpers, s₁, hbody, -, rfl⟩ := TensorFlow.code_eq_ok h
    exact ⟨body, s₁, _, _, hbody, append_regroup ..⟩

section
variable {n : Network} {k : String}

theorem sourcesOf_closed (hinputs : ∀ l ∈ n.layers, ∀ a ∈ l.inputs, a ≠ l.name ∧ a ∈ n.names) (k : String) :
    (graphOf n).sourcesOf k = (n.inputsOf k).eraseDups := by
  have hall : ((n.inputsOf k).filter fun a => a ≠ k ∧ a ∈ n.names) = n.inputsOf k := by
    refine filter_eq_self.mpr fun a ha => ?_
    obtain ⟨l, hl, hin⟩ := mem_flatMap.mp ha
    obtain ⟨hl, hk⟩ := mem_filter.mp hl
    rw [← beq_iff_eq.mp hk]
    simpa using hinputs l hl a hin
  rw [sourcesOf_graphOf, sourcesOf_wire n (g := {}) (fun m hm => by cases hm)
    nodup_nil, hall]

theorem filter_name {layers : List Layer} (h : (layers.map (·.name)).Nodup) {l : Layer} (hl : l ∈ layers) :
    layers.filter (·.name == l.name) = [l] := by
  induction layers with
  | nil => cases hl
  | cons x layers ih =>
    obtain ⟨hx, h⟩ := nodup_cons.mp h
    rcases mem_cons.mp hl with rfl | hl
    · have hnone : layers.filter (·.name == l.name) = [] := by
        refine filter_eq_nil_iff.mpr fun y hy e => hx ?_
        exact mem_map.mpr ⟨y, hy, beq_iff_eq.mp e⟩
      simp [hnone]
    · have hne : x.name ≠ l.name := fun e => hx (mem_map.mpr ⟨l, hl, e.symm⟩)
      simp [hne, ih h hl]

theorem map_sources_eq_iff (hsources : (graphOf n).sourcesOf k = (n.inputsOf k).eraseDups)
    (var : String → String) :
    (n.inputsOf k).eraseDups.map var = (n.inputsOf k).map var ↔ (n.inputsOf k).Nodup := by
  constructor
  · intro h
    have hnodup : (n.inputsOf k).eraseDups.Nodup := hsources ▸ (mirrored_graphOf n).sources_nodup k
    -- as many operands as inputs, so nothing was dropped
    have hsub := hnodup.subperm fun a ha => mem_eraseDups.mp ha
    have hlen := congrArg length h
    rw [length_map, length_map] at hlen
    exact (hsub.perm_of_length_le (Nat.le_of_eq hlen.symm)).nodup_iff.mp hnodup
  · intro h
    rw [eraseDups_of_nodup h]

end

/-- In a network whose layers read other layers of it, a sum, difference,
product or concatenation becomes a line that reads the variables of its inputs in order, each of them
once. So every input entry has its operand exactly if no input is named twice. One target leaves out a
sum, difference or product of less than two different inputs. -/
theorem merged_operands (t : CodeTarget) (r : LayerRule) (hr : t.layerRule? = some r) (file : String)
    (n : Network) (w : Option Weights) (phase text : String) (s : Scope)
    (hinputs : ∀ l ∈ n.layers, ∀ a ∈ l.inputs, a ≠ l.name ∧ a ∈ n.names)
    (hrun : (t.code file).outcome (startScope n w phase) = (.ok text, s)) :
    ∃ body s₁ before after,
      (emitAll r).outcome (startScope n w phase) = (.ok body, s₁) ∧
      text = before ++ render (allLines body) ++ after ∧
      body.map (·.1) = (graphOf n).order ∧
      ∀ k ls, (k, ls) ∈ body → ∃ l ∈ n.layers, l.name = k ∧ (n.names.Nodup → n.inputsOf k = l.inputs) ∧
        (l.op ∈ merging →
          (t.LeavesOut l.op (n.inputsOf k).eraseDups → ls = []) ∧
          (¬ t.LeavesOut l.op (n.inputsOf k).eraseDups → ∃ line, ls = [line] ∧
            line.target = some (variableName k) ∧
            line.reads = (n.inputsOf k).eraseDups.map s₁.graph.graph.variableOf ∧
            (line.reads = (n.inputsOf k).map s₁.graph.graph.variableOf ↔ (n.inputsOf k).Nodup))) := by
  obtain ⟨body, s₁, before, after, hbody, htext⟩ := code_body hr hrun
  obtain ⟨hnames, out, hren, hmerging⟩ := emitAll_merging hr hbody
  refine ⟨body, s₁, before, after, hbody, htext, hnames, fun k ls hk => ?_⟩
  have hlisted : k ∈ (graphOf n).order := hnames ▸ mem_map_of_mem hk
  obtain ⟨v, hv⟩ := Table.mem_keys_iff.mp (mem_keys_of_order_graphOf hlisted)
  obtain ⟨hitem, hname, hvertex, -⟩ := find?_graphOf hv
  have hsources := sourcesOf_closed hinputs k
  refine ⟨v.item, hitem, hname, fun hnodup => hname ▸ (by rw [Network.inputsOf, filter_name hnodup hitem,
    flatMap_singleton]), fun hop => ?_⟩
  obtain ⟨hout, hin⟩ := hmerging (k, ls) hk v hv hop
  rw [← sourcesOf_of_find? hv, hsources] at hout hin
  refine ⟨hout, fun h => ?_⟩
  obtain ⟨line, rfl, htarget, hreads⟩ := hin h
  have hvar : line.reads = (n.inputsOf k).eraseDups.map s₁.graph.graph.variableOf := by
    rw [hreads]
    refine map_congr_left fun a ha => (hren.variableOf (mem_keys_of_feeds (mirrored_graphOf n) (b := k) ?_)).symm
    rwa [Graph.Feeds, hsources]
  refine ⟨line, rfl, hvertex ▸ htarget, hvar, ?_⟩
  rw [hvar]
  exact map_sources_eq_iff hsources _

def skippedSum : Network := { layers := [
  { name := "x", op := "DataInput" },
  { name := "d", op := "Dropout", inputs := ["x"] },
  { name := "a", op := "Add", inputs := ["d", "x"] }] }

theorem merged_operands_skipped :
    (∀ l ∈ skippedSum.layers, ∀ a ∈ l.inputs, a ≠ l.name ∧ a ∈ skippedSum.names) ∧
    ∃ text s body s₁ line, (CodeTarget.code "" .tensorflow).outcome (startScope skippedSum none "test") =
        (.ok text, s) ∧
      (emitAll (ruleOr "TensorflowEmitter" TensorFlow.rule)).outcome (startScope skippedSum none "test") =
        (.ok body, s₁) ∧
      ("a", [line]) ∈ body ∧ line.reads = ["d", "x"].map s₁.graph.graph.variableOf := by
  have hinputs : ∀ l ∈ skippedSum.layers, ∀ a ∈ l.inputs, a ≠ l.name ∧ a ∈ skippedSum.names := by decide
  obtain ⟨text, s, hrun⟩ : ∃ text s, (CodeTarget.code "" .tensorflow).outcome
      (startScope skippedSum none "test") = (.ok text, s) := ⟨_, _, rfl⟩
  obtain ⟨body, s₁, -, -, hbody, -, hnames, hlines⟩ :=
    merged_operands .tensorflow _ rfl "" skippedSum none "test" text s hinputs hrun
  have ha : "a" ∈ body.map (·.1) := hnames ▸ by decide
  obtain ⟨⟨k, ls⟩, hk, rfl⟩ := mem_map.mp ha
  obtain ⟨l, hl, hname, -, hmerge⟩ := hlines _ ls hk
  have hop : ∀ l ∈ skippedSum.layers, l.name = "a" → l.op ∈ merging := by decide
  obtain ⟨line, rfl, -, -, hiff⟩ := (hmerge (hop l hl hname)).2 fun h => by cases h.1
  exact ⟨hinputs, text, s, body, s₁, line, hrun, hbody, hk, hiff.mpr (by decide)⟩

def doubled : Network := { layers := [
  { name := "x", op := "DataInput" },
  { name := "a", op := "Add", inputs := ["x", "x"] }] }

theorem doubled_operand_lost :
    (∀ l ∈ doubled.layers, ∀ a ∈ l.inputs, a ≠ l.name ∧ a ∈ doubled.names) ∧
    (∃ text s body s₁, (CodeTarget.code "" .tensorflow).outcome (startScope doubled none "test") = (.ok text, s) ∧
      (emitAll (ruleOr "TensorflowEmitter" TensorFlow.rule)).outcome (startScope doubled none "test") =
        (.ok body, s₁) ∧ ("a", [.assign 1 "a" [.use "x"]]) ∈ body) ∧
    (∃ text s body s₁, (CodeTarget.code "" .pytorch).outcome (startScope doubled (some ∅) "test") = (.ok text, s) ∧
      (emitAll (ruleOr "Pytorch Emitter" PyTorch.rule)).outcome (startScope doubled (some ∅) "test") =
        (.ok body, s₁) ∧ ("a", [.assign 2 "a" [.use "x"]]) ∈ body) ∧
    ∃ text s body s₁, (CodeTarget.code "" .cntk).outcome (startScope doubled none "test") = (.ok text, s) ∧
      (emitAll (ruleOr "CntkEmitter" Cntk.rule)).outcome (startScope doubled none "test") =
        (.ok body, s₁) ∧ ("a", []) ∈ body := by
  refine ⟨by decide, ⟨_, _, _, _, rfl, rfl, by decide⟩, ⟨_, _, _, _, rfl, rfl, by decide⟩,
    _, _, _, _, rfl, rfl, by decide⟩

end Target

end NetBridge
