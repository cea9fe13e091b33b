import NetBridge.Target.Generator
import NetBridge.Proofs.NetworkGraph
import NetBridge.Proofs.TensorFlowRules

/-!
# Variables of TensorFlow code

Every variable that a line reads has been assigned before, and last by the layer that it stands for. `Walked` is the
state of the walk along the order of the graph.
-/

namespace NetBridge.Target.TensorFlow

open Code Run List Graph LayerGraph
open LayerGraph (graphOf)

/-! ## Lines and the layers they belong to -/

def tagged (body : List (String × List Line)) : List (String × Line) :=
  body.flatMap fun e => e.2.map fun l => (e.1, l)

theorem tagged_concat (body : List (String × List Line)) (n : String) (ls : List Line) :
    tagged (body ++ [(n, ls)]) = tagged body ++ ls.map fun l => (n, l) := by
  simp [tagged]

theorem map_snd_tagged (body : List (String × List Line)) : (tagged body).map (·.2) = allLines body := by
  simp [tagged, allLines, map_flatMap]

def lastAssignment (x : String) (ls : List (String × Line)) : Option (String × Line) :=
  ls.reverse.find? fun e => e.2.target == some x

variable {ls : List (String × Line)} {body : List (String × List Line)}

theorem exists_lastAssignment {x : String} {e : String × Line} (he : e ∈ ls) (hx : e.2.target = some x) :
    ∃ e', lastAssignment x ls = some e' ∧ e' ∈ ls ∧ e'.2.target = some x := by
  have hsome : (lastAssignment x ls).isSome := by
    rw [lastAssignment, find?_isSome]
    exact ⟨e, mem_reverse.mpr he, by simp [hx]⟩
  obtain ⟨e', h'⟩ := Option.isSome_iff_exists.mp hsome
  refine ⟨e', h', mem_reverse.mp (mem_of_find?_eq_some h'), ?_⟩
  simpa using find?_some h'

/-! ## Where a variable comes from -/

inductive Origin (g : Graph Layer) (phase : String) : String → String → Prop
  | own {n : String} {v : Vertex Layer} : g.vertices.find? n = some v → ¬ Skips phase v → Origin g phase n n
  | skipped {n p q : String} {v : Vertex Layer} : g.vertices.find? n = some v → Skips phase v →
      v.sources.head? = some p → Origin g phase p q → Origin g phase n q

variable {g : Graph Layer} {names : List String} {a b phase text : String}

theorem Origin.unique {phase n q q' : String} (h : Origin g phase n q) (h' : Origin g phase n q') : q = q' := by
  induction h with
  | own hv hs =>
    cases h' with
    | own => rfl
    | skipped hv' hs' => rw [hv] at hv'; cases hv'; exact absurd hs' hs
  | skipped hv hs hp _ ih =>
    cases h' with
    | own hv' hs' => rw [hv] at hv'; cases hv'; exact absurd hs hs'
    | skipped hv' _ hp' ho =>
      rw [hv] at hv'; cases hv'
      rw [hp] at hp'; cases hp'
      exact ih ho

/-- Why a line of a layer may read a variable after the lines before it: these end with the line that
pads the layer's input, or the line of a source, or of the layer it hands on, was the last to assign
the variable. -/
inductive Provided (g : Graph Layer) (phase : String) (pre : List (String × Line)) (n x : String) : Prop
  | pad {pre' : List (String × Line)} {l : Line} : x = variableName n ++ "_pad" → pre = pre' ++ [(n, l)] →
      l.target = some x → Provided g phase pre n x
  | source {p q : String} {l : Line} : p ∈ g.sourcesOf n → Origin g phase p q → x = variableName q →
      lastAssignment x pre = some (q, l) → Provided g phase pre n x

def Sound (g : Graph Layer) (phase : String) (ls : List (String × Line)) : Prop :=
  ∀ pre n l post, ls = pre ++ (n, l) :: post → ∀ x ∈ l.reads, Provided g phase pre n x

theorem Sound.concat {phase n : String} {l : Line}
    (h : Sound g phase ls) (hl : ∀ x ∈ l.reads, Provided g phase ls n x) : Sound g phase (ls ++ [(n, l)]) := by
  intro pre m k post e
  rcases split_concat e with ⟨rfl, he⟩ | ⟨post', e⟩
  · cases he
    exact hl
  · exact h pre m k post' e

/-! ## Different variables -/

def Apart (names : List String) : Prop :=
  (names.map variableName ++ names.map fun m => variableName m ++ "_pad").Nodup

theorem Apart.inj (h : Apart names) (ha : a ∈ names) (hb : b ∈ names) (e : variableName a = variableName b) : a = b :=
  inj_on_of_nodup_map (nodup_append.mp h).1 ha hb e

theorem Apart.pad_ne (h : Apart names) (ha : a ∈ names)
    (hb : b ∈ names) : variableName a ++ "_pad" ≠ variableName b := by
  intro e
  exact (nodup_append.mp h).2.2 _ (mem_map_of_mem hb) _ (mem_map_of_mem ha) e.symm

/-! ## The walk -/

structure Walked (g : Graph Layer) (phase : String) (out : String → String) (done : List String)
    (ls : List (String × Line)) : Prop where
  sound : Sound g phase ls
  origin : ∀ m ∈ done, Origin g phase m (out m)
  assigned : ∀ m ∈ done, ∃ l, (out m, l) ∈ ls ∧ l.target = some (variableName (out m))
  owner : ∀ e ∈ ls, e.1 ∈ done ∧
    (e.2.target = some (variableName e.1) ∨ e.2.target = some (variableName e.1 ++ "_pad"))

namespace Walked

variable {g' : Graph Layer} {out : String → String} {done : List String} {n : String} {v : Vertex Layer}

theorem lastAssignment (h : Walked g phase out done ls) (hnames : Apart names)
    (hd : ∀ m ∈ done, m ∈ names) {m : String} (hm : m ∈ done) :
    ∃ l, TensorFlow.lastAssignment (variableName (out m)) ls = some (out m, l) := by
  obtain ⟨l, hl, ht⟩ := h.assigned m hm
  obtain ⟨⟨k, l'⟩, he, hmem, ht'⟩ := exists_lastAssignment hl ht
  have hk := hd k (h.owner _ hmem).1
  have ho := hd (out m) (h.owner _ hl).1
  have hkm : k = out m := by
    rcases (h.owner _ hmem).2 with h1 | h1
    · exact hnames.inj hk ho (Option.some.inj (h1.symm.trans ht'))
    · exact absurd (Option.some.inj (h1.symm.trans ht')) (hnames.pad_ne hk ho)
  exact ⟨l', hkm ▸ he⟩

theorem provided (h : Walked g phase out done ls) (hnames : Apart names) (hd : ∀ m ∈ done, m ∈ names)
    (hr : g.Renamed out g') (hs : ∀ p ∈ g.sourcesOf v.name, p ∈ done) {x : String}
    (hx : SourceVariable g' v x) : Provided g phase ls v.name x := by
  obtain ⟨p, w, hp, hw, rfl⟩ := hx
  rw [hr.sourcesOf] at hp
  obtain ⟨u, _, rfl⟩ := hr.of_find? hw
  obtain ⟨l, hl⟩ := h.lastAssignment hnames hd (hs p hp)
  exact .source hp (h.origin p (hs p hp)) rfl hl

variable {new : List Line}

theorem write (h : Walked g phase out done ls) (hv : g.vertices.find? n = some v) (hskip : ¬Skips phase v)
    (hn : out n = n) (hsound : Sound g phase (ls ++ new.map fun l => (n, l)))
    (hown : ∃ l ∈ new, l.target = some (variableName n))
    (hall : ∀ l ∈ new, l.target = some (variableName n) ∨ l.target = some (variableName n ++ "_pad")) :
    Walked g phase out (done ++ [n]) (ls ++ new.map fun l => (n, l)) where
  sound := hsound
  origin m hm := by
    rcases mem_append.mp hm with hm | hm
    · exact h.origin m hm
    · rw [mem_singleton.mp hm, hn]
      exact .own hv hskip
  assigned m hm := by
    rcases mem_append.mp hm with hm | hm
    · obtain ⟨l, hl, ht⟩ := h.assigned m hm
      exact ⟨l, mem_append_left _ hl, ht⟩
    · obtain ⟨l, hl, ht⟩ := hown
      rw [mem_singleton.mp hm, hn]
      exact ⟨l, mem_append_right _ (mem_map_of_mem hl), ht⟩
  owner e he := by
    rcases mem_append.mp he with he | he
    · exact ⟨mem_append_left _ (h.owner e he).1, (h.owner e he).2⟩
    · obtain ⟨l, hl, rfl⟩ := mem_map.mp he
      exact ⟨by simp, hall l hl⟩

theorem block (h : Walked g phase out done ls) (hnames : Apart names) (hd : ∀ m ∈ done, m ∈ names)
    (hr : g.Renamed out g') (hv : g.vertices.find? v.name = some v) (hskip : ¬Skips phase v)
    (hn : out v.name = v.name) (hout : v.outputName = v.name) (hs : ∀ p ∈ g.sourcesOf v.name, p ∈ done)
    (hb : Block g' v new) : Walked g phase out (done ++ [v.name]) (ls ++ new.map fun l => (v.name, l)) := by
  have hvar : v.variableName = variableName v.name := by rw [Vertex.variableName, hout]
  cases hb with
  | @plain l ht hx =>
    rw [hvar] at ht
    refine h.write hv hskip hn (h.sound.concat fun x h' => h.provided hnames hd hr hs (hx x h'))
      ⟨l, by simp, ht⟩ fun k hk => ?_
    rw [mem_singleton.mp hk]
    exact .inl ht
  | @padded pad l htp hxp ht hx =>
    rw [hvar] at htp ht hx
    have hpad : Sound g phase (ls ++ [(v.name, pad)]) :=
      h.sound.concat fun x h' => h.provided hnames hd hr hs (hxp x h')
    have hboth := hpad.concat fun x h' => .pad (hx x h') rfl (by rw [htp, hx x h'])
    rw [append_assoc] at hboth
    refine h.write hv hskip hn hboth ⟨l, by simp, ht⟩ fun k hk => ?_
    rcases mem_pair.mp hk with rfl | rfl
    · exact .inr htp
    · exact .inl ht

theorem skip (h : Walked g phase out done ls) (hv : g.vertices.find? n = some v) (hskip : Skips phase v)
    {p : String} (hp : v.sources.head? = some p) (hpd : p ∈ done) :
    Walked g phase (renameAt out n (out p)) (done ++ [n]) ls where
  sound := h.sound
  origin := forall_renameAt h.origin (.skipped hv hskip hp (h.origin p hpd))
  assigned := forall_renameAt (P := fun _ q => ∃ l, (q, l) ∈ ls ∧ l.target = some (variableName q)) h.assigned
    (h.assigned p hpd)
  owner e he := ⟨mem_append_left _ (h.owner e he).1, (h.owner e he).2⟩

end Walked

/-- The walk after some layers, as the scope shows it. Nothing is said about the lines once a layer has
been reported. -/
def Walking (g : Graph Layer) (phase : String) (done : List String) (out : String → String)
    (body : List (String × List Line)) (s : Scope) : Prop :=
  s.phase = phase ∧ ((∀ op, unsupported op ∉ s.log) → Walked g phase out done (tagged body))

theorem returnLine_spec {g : LayerGraph} {log : List String} : Triple (At g log phase) returnLine fun l s =>
      s.graph.graph.vertices = g.graph.vertices ∧ s.log = log ∧ s.phase = phase ∧
      ∀ x ∈ l.reads, ∃ m w, g.graph.vertices.find? m = some w ∧ x = w.variableName := by
  -- the inputs are taken out of the graph, its vertices stay
  have htake : Triple (At g log phase) takeInputs fun _ => At g.takeInputs.2 log phase := by
    refine .bind_of (p := fun t => t.graph = g ∧ t.log = log ∧ t.phase = phase)
      (.get fun s hs => ⟨hs, hs.graph, hs.log, hs.phase⟩) fun t ht => ?_
    exact .bind (.set fun s hs => ⟨by rw [← ht.1]; rfl, ht.2.1, ht.2.2⟩) fun _ => keeps_pure
  have hvertices : g.takeInputs.2.graph.vertices = g.graph.vertices := by
    unfold LayerGraph.takeInputs
    split <;> rfl
  refine htake.bind fun names => .bind_of (variableNames_spec names) fun ins hins => ?_
  refine .bind_of layers_spec fun h _ => .bind_of (variableNames_spec h.outputs) fun outs houts => ?_
  refine .pure fun s hs => ⟨by rw [hs.graph, hvertices], hs.log, hs.phase, fun x hx => ?_⟩
  simp only [Line.reads, filterMap_append, filterMap_operands, filterMap, operand?_text,
    nil_append, append_nil, mem_append] at hx
  rw [← hvertices]
  rcases hx with hx | hx
  · obtain ⟨m, _, w, hw, rfl⟩ := hins x hx
    exact ⟨m, w, hw, rfl⟩
  · obtain ⟨m, _, w, hw, rfl⟩ := houts x hx
    exact ⟨m, w, hw, rfl⟩

theorem helperText_outcome {helper : String → Option String} {s t : Scope}
    (h : (helperText helper).outcome s = (.ok text, t)) : t = s := by
  have hkeep : Keeps (· = s) (helperText helper) := by
    refine .bind (Q := fun _ => (· = s)) (.get fun _ hs => hs) fun r => ?_
    refine .bind ?_ fun _ => keeps_pure
    refine .mapM (I := fun _ _ => (· = s)) fun done a todo bs _ => ?_
    split
    · exact keeps_pure
    · exact .throw
  exact hkeep s rfl text t h

/-! ## The code of a network -/

theorem code_eq_ok {s₀ s : Scope} (h : code.outcome s₀ = (.ok text, s)) :
    ∃ body last helpers s₁, (emitAll (ruleOr "TensorflowEmitter" rule)).outcome s₀ = (.ok body, s₁) ∧
      returnLine.outcome s₁ = (.ok last, s) ∧
      text = TensorFlowText.headStart ++ boolText (s₀.phase = "train") ++ TensorFlowText.headEnd ++ "\n" ++
        render (allLines body) ++ last.render ++ "\n" ++ helpers := by
  obtain ⟨_, _, ⟨⟩, h⟩ := step_cases h
  obtain ⟨body, s₁, hbody, h⟩ := step_cases h
  obtain ⟨last, s₂, hlast, h⟩ := step_cases h
  obtain ⟨helpers, s₃, hhelp, h⟩ := step_cases h
  obtain ⟨rfl, rfl⟩ := pure_eq_ok.mp h
  obtain rfl := helperText_outcome hhelp
  exact ⟨body, last, helpers, s₁, hbody, hlast, rfl⟩

theorem mem_names_of_mem_order {n : Network} {m : String} (h : m ∈ (graphOf n).order) : m ∈ n.names := by
  obtain ⟨v, hv⟩ := Table.mem_keys_iff.mp (mem_keys_of_order_graphOf h)
  obtain ⟨hitem, hname, _⟩ := find?_graphOf hv
  exact hname ▸ mem_map_of_mem hitem

theorem emitAll_walking {n : Network} (hapart : Apart n.names) (hknown : ∀ l ∈ n.layers, l.op ≠ "UNKNOWN")
    {w : Option Weights} {s : Scope}
    (h : (emitAll (ruleOr "TensorflowEmitter" rule)).outcome (startScope n w phase) = (.ok body, s)) :
    body.map (·.1) = (graphOf n).order ∧ ∃ out, (graphOf n).Renamed out s.graph.graph ∧
      Walking (graphOf n) phase (graphOf n).order out body s := by
  have hstart : Walked (graphOf n) phase id [] (tagged []) :=
    ⟨fun pre k l post e => by simp [tagged] at e, nofun, nofun, nofun⟩
  refine emitAll_walk (I := Walking (graphOf n) phase) rfl ⟨rfl, fun _ => hstart⟩ ?_ h
  rintro done out body v s ls t hd ⟨hphase, hw⟩ hrun
  obtain ⟨hitem, -, -, hout⟩ := find?_graphOf hd.vertex
  have hnames : ∀ m ∈ done, m ∈ n.names := fun m hm => mem_names_of_mem_order (hd.listed m (mem_append_left _ hm))
  have hs := hd.sources v.name (by simp)
  simp only [Walking, tagged_concat]
  cases layer_spec hd.found (hknown _ hitem) s ⟨rfl, rfl, hphase⟩ ls t hrun with
  | written hskip hat hblock =>
    refine ⟨out v.name, ?_, hat.phase, fun hq => ?_⟩
    · rw [renameAt_same, hat.graph]
      exact hd.renamed
    · rw [hat.log] at hq
      rw [renameAt_same]
      exact (hw hq).block hapart hnames hd.renamed hd.vertex hskip (hd.fresh _ hd.new) hout hs hblock
  | @skipped u w p _ hskip hu hp hf hat =>
    cases hd.found.symm.trans hu
    obtain ⟨w', hw', rfl⟩ := hd.renamed.of_find? hf
    refine ⟨out p, by rw [hat.graph]; exact hd.renamed.modify v.name (out p), hat.phase, fun hq => ?_⟩
    rw [hat.log] at hq
    rw [map_nil, append_nil]
    refine (hw hq).skip hd.vertex hskip hp (hs p ?_)
    rw [sourcesOf_of_find? hd.vertex]
    exact mem_of_head? hp
  | reported hat =>
    refine ⟨out v.name, ?_, hat.phase, fun hq => absurd (by simp [hat.log]) (hq v.item.op)⟩
    rw [renameAt_same, hat.graph]
    exact hd.renamed

/-- **Variables of the code.** When the network has no cycle, its variables are all different and it has
no layer of an unknown kind, and code is generated without a report, then a variable that a line of a
layer reads is either that of the layer's padded input, assigned on the line before, or that of a source,
last assigned by the layer that the source hands on. All that the last line returns is assigned. -/
theorem code_variables_assigned (n : Network) (w : Option Weights) (phase text : String) (s : Scope)
    (hacyclic : ∀ a, ¬ Relation.TransGen n.Feeds a a) (hapart : Apart n.names)
    (hknown : ∀ l ∈ n.layers, l.op ≠ "UNKNOWN")
    (hrun : code.outcome (startScope n w phase) = (.ok text, s)) (hquiet : ∀ op, unsupported op ∉ s.log) :
    ∃ body last helpers s₁ s₂,
      (emitAll (ruleOr "TensorflowEmitter" rule)).outcome (startScope n w phase) = (.ok body, s₁) ∧
      returnLine.outcome s₁ = (.ok last, s₂) ∧
      text = TensorFlowText.headStart ++ boolText (phase = "train") ++ TensorFlowText.headEnd ++ "\n" ++
        render (allLines body) ++ last.render ++ "\n" ++ helpers ∧
      body.map (·.1) = (graphOf n).order ∧
      (tagged body).map (·.2) = allLines body ∧
      (∀ pre k l post, tagged body = pre ++ (k, l) :: post → ∀ x ∈ l.reads,
        (x = variableName k ++ "_pad" ∧ ∃ pre' l', pre = pre' ++ [(k, l')] ∧ l'.target = some x) ∨
        ∃ p ∈ (graphOf n).sourcesOf k, ∃ v, s.graph.graph.vertices.find? p = some v ∧
          x = v.variableName ∧ Origin (graphOf n) phase p v.outputName ∧
          ∃ l', lastAssignment x pre = some (v.outputName, l')) ∧
      ∀ x ∈ last.reads, (lastAssignment x (tagged body)).isSome := by
  obtain ⟨body, last, helpers, s₁, hbody, hlast, htext⟩ := code_eq_ok hrun
  obtain ⟨hmap, out, hren, hphase, hwalk⟩ := emitAll_walking hapart hknown hbody
  obtain ⟨hvertices, hlog, _, hreads⟩ := returnLine_spec s₁ ⟨rfl, rfl, hphase⟩ last s hlast
  have hdone := hwalk (hlog ▸ hquiet)
  have hlisted {m : String} := mem_order_of_acyclic (m := m) hacyclic
  refine ⟨body, last, helpers, s₁, s, hbody, hlast, htext, hmap, map_snd_tagged body, ?_, ?_⟩
  · intro pre k l post e x hx
    cases hdone.sound pre k l post e x hx with
    | pad h1 h2 h3 => exact .inl ⟨h1, _, _, h2, h3⟩
    | @source p q l' hp ho hq hl =>
      have hpk : p ∈ (graphOf n).vertices.keys :=
        mem_keys_of_feeds (mirrored_graphOf n) hp
      obtain ⟨u, hu⟩ := Table.mem_keys_iff.mp hpk
      obtain rfl := ho.unique (hdone.origin p (hlisted.mpr hpk))
      refine .inr ⟨p, hp, { u with outputName := out p }, ?_, hq, ho, l', hl⟩
      rw [hvertices, hren p, hu]
      rfl
  · intro x hx
    obtain ⟨m, v, hv, rfl⟩ := hreads x hx
    obtain ⟨u, hu, rfl⟩ := hren.of_find? hv
    obtain ⟨l, hl⟩ := hdone.lastAssignment hapart (fun k => mem_names_of_mem_order)
      (hlisted.mpr (Table.mem_keys_of_find? hu))
    exact Option.isSome_iff_exists.mpr ⟨_, hl⟩

def droppedNet : Network := { layers := [
  { name := "x", op := "DataInput" },
  { name := "c", op := "Conv", inputs := ["x"], attrs := .ofList [
    ("strides", .list { ints := [1, 1, 1, 1] }), ("pads", .list { ints := [0, 1, 1, 0, 0, 1, 1, 0] })] },
  { name := "d", op := "Dropout", inputs := ["c"] },
  { name := "r", op := "Relu", inputs := ["d"] }] }

theorem code_variables_assigned_dropped : Apart droppedNet.names ∧
    ∃ text s body last s₁ s₂, code.outcome (startScope droppedNet none "test") = (.ok text, s) ∧ s.log = [] ∧
      (emitAll (ruleOr "TensorflowEmitter" rule)).outcome (startScope droppedNet none "test") =
        (.ok body, s₁) ∧
      returnLine.outcome s₁ = (.ok last, s₂) ∧ body.map (·.1) = ["x", "c", "d", "r"] ∧
      ∀ x ∈ last.reads, (lastAssignment x (tagged body)).isSome := by
  have hapart : Apart droppedNet.names := by unfold Apart; decide
  obtain ⟨text, s, hrun, hlog⟩ : ∃ text s,
      code.outcome (startScope droppedNet none "test") = (.ok text, s) ∧ s.log = [] := ⟨_, _, rfl, rfl⟩
  obtain ⟨body, last, _, s₁, s₂, hbody, hlast, _, horder, _, _, hreads⟩ :=
    code_variables_assigned droppedNet none "test" text s (acyclic_of_order (by decide)) hapart
      (by decide) hrun fun op => by simp [hlog]
  exact ⟨hapart, text, s, body, last, s₁, s₂, hrun, hlog, hbody, hlast, horder.trans (by decide), hreads⟩

def unknownNet : Network := { layers := [
  { name := "x", op := "DataInput" },
  { name := "u", op := "UNKNOWN", inputs := ["x"] },
  { name := "r", op := "Relu", inputs := ["u"] }] }

theorem length_le_unsupported (op : String) : "TensorflowEmitter".length ≤ (unsupported op).length := by
  have hle (a b : String) : a.length ≤ (a ++ b).length := by
    rw [String.length_append]
    exact Nat.le_add_right ..
  exact (hle _ _).trans ((hle _ _).trans (hle _ _))

/-- A layer of an unknown kind is named in the log, but not reported, and no line assigns its variable:
code is generated that reads it. -/
theorem code_reads_unassigned : (∀ a, ¬ Relation.TransGen unknownNet.Feeds a a) ∧ Apart unknownNet.names ∧
    ∃ text s body s₁, code.outcome (startScope unknownNet none "test") = (.ok text, s) ∧
      (∀ op, unsupported op ∉ s.log) ∧
      (emitAll (ruleOr "TensorflowEmitter" rule)).outcome (startScope unknownNet none "test") =
        (.ok body, s₁) ∧
      (∃ e ∈ tagged body, "u" ∈ e.2.reads) ∧ ∀ e ∈ tagged body, e.2.target ≠ some "u" := by
  refine ⟨acyclic_of_order (by decide), by unfold Apart; decide, _, _, _, _, rfl, fun op h => ?_,
    rfl, by decide, by decide⟩
  have hlog : unsupported op = "u" := mem_singleton.mp h
  exact absurd (hlog ▸ length_le_unsupported op) (by decide)

end NetBridge.Target.TensorFlow
