import NetBridge.Proofs.MergedOperands

/-!
# Operands of PyTorch code

Lines read the argument of their function, parts of the module, and variables that earlier lines have assigned
(`Given`). Layers with a rule that writes no line and renames nothing are `Unwritten`: whatever reads one reads a
variable that is not there.
-/

namespace NetBridge.Target.PyTorch

open Code Run List LayerGraph
open LayerGraph (graphOf)
open TensorFlow (tagged tagged_concat map_snd_tagged Apart helperText_outcome)

/-! ## Layers without a line -/

/-- A layer whose rule writes no line, and leaves the layer its own name. -/
def Unwritten (l : Layer) : Prop :=
  l.op = "Sigmoid" ∨ l.op = "UNKNOWN" ∨ l.op = "ReduceMean" ∧ (l.get "axes" >>= Value.toInts) = .ok []

structure Block (g : Graph Layer) (v : Vertex Layer) (ls : List Line) : Prop where
  reads : ∀ pre l post, ls = pre ++ l :: post → ∀ x ∈ l.reads,
    SourceVariable g v x ∨ ∃ l' ∈ pre, l'.target = some x
  targets : ∀ l ∈ ls, l.target = some v.variableName ∨ l.target = some (v.variableName ++ "_pad")
  own : (∃ l ∈ ls, l.target = some v.variableName) ∧ ¬ Unwritten v.item ∨ ls = [] ∧ Unwritten v.item

variable {l : Line} {axes : List Int} {body : List Piece} {phase : String}

variable {g : Graph Layer} {v : Vertex Layer}

theorem Block.line (hv : ¬Unwritten v.item) (h : ∀ x ∈ body.filterMap Piece.operand?, SourceVariable g v x) :
    Block g v [.assign 2 v.variableName body] where
  reads pre l post e x hx := by
    obtain ⟨rfl, rfl, rfl⟩ : pre = [] ∧ l = .assign 2 v.variableName body ∧ post = [] := by
      cases pre with
      | nil => simpa [eq_comm] using e
      | cons a pre => simp at e
    exact .inl (h x hx)
  targets l hl := by
    rw [mem_singleton.mp hl]
    exact .inl rfl
  own := .inl ⟨⟨_, mem_singleton_self _, rfl⟩, hv⟩

theorem Block.empty (hv : Unwritten v.item) : Block g v [] where
  reads pre l post e := by simp at e
  targets l hl := by cases hl
  own := .inr ⟨rfl, hv⟩

theorem Block.padded (hv : ¬Unwritten v.item) {pad body : List Piece}
    (hpad : ∀ x ∈ pad.filterMap Piece.operand?, SourceVariable g v x)
    (hbody : ∀ x ∈ body.filterMap Piece.operand?, x = v.variableName ++ "_pad") :
    Block g v [.assign 2 (v.variableName ++ "_pad") pad, .assign 2 v.variableName body] where
  reads pre l post e x hx := by
    match pre, e with
    | [], e =>
      cases e
      exact .inl (hpad x hx)
    | [a], e =>
      cases e
      exact .inr ⟨_, mem_singleton_self _, by rw [hbody x hx]; rfl⟩
    | a :: b :: pre, e => simp at e
  targets l hl := by
    rcases mem_pair.mp hl with rfl | rfl
    · exact .inr rfl
    · exact .inl rfl
  own := .inl ⟨⟨_, .tail _ (mem_singleton_self _), rfl⟩, hv⟩

theorem means_reads (result keep x : String) (axes : List Int) {pre post : List Line}
    (e : means result keep x axes = pre ++ l :: post) {y : String} (hy : y ∈ l.reads) :
    y = x ∨ ∃ l' ∈ pre, l'.target = some y := by
  induction axes generalizing x pre with
  | nil => simp [means] at e
  | cons a axes ih =>
    cases pre with
    | nil =>
      cases e
      exact .inl (by simpa [eq_comm] using hy)
    | cons b pre =>
      obtain ⟨rfl, htail⟩ := cons.inj e
      rcases ih result htail with rfl | ⟨l', hl', ht⟩
      · exact .inr ⟨_, .head _, rfl⟩
      · exact .inr ⟨l', .tail _ hl', ht⟩

theorem means_targets {result keep x : String} (h : l ∈ means result keep x axes) : l.target = some result := by
  induction axes generalizing x with
  | nil => cases h
  | cons a axes ih =>
    rcases mem_cons.mp h with rfl | h
    · rfl
    · exact ih h

theorem Block.means {x keep : String} (hx : SourceVariable g v x)
    (haxes : axes = [] ↔ Unwritten v.item) : Block g v (means v.variableName keep x axes) where
  reads pre l post e y hy := by
    rcases means_reads _ _ _ axes e hy with rfl | h
    · exact .inl hx
    · exact .inr h
  targets l hl := .inl (means_targets hl)
  own := by
    cases axes with
    | nil => exact .inr ⟨rfl, haxes.mp rfl⟩
    | cons a axes => exact .inl ⟨⟨_, .head _, rfl⟩, fun h => by cases haxes.mpr h⟩

/-! ## Steps that only look -/

section
variable {g : LayerGraph} {log : List String}

theorem keeps_setUp (l : Line) : Keeps (At g log phase) (setUp l) :=
  .modify fun _ hs => ⟨hs.graph, hs.log, hs.phase⟩

theorem keeps_setWeight (layer name : String) (t : Value) : Keeps (At g log phase) (setWeight layer name t) :=
  .modify fun _ hs => ⟨hs.graph, hs.log, hs.phase⟩

instance (v : Vertex Layer) : Looks (layerPads v) := by unfold layerPads; infer_instance

/-! ## Rules -/

def Writes (g : LayerGraph) (v : Vertex Layer) (r : Emit (List Line)) : Prop :=
  ∀ log phase, Triple (At g log phase) r fun ls s => At g log phase s ∧ Block g.graph v ls

theorem writes_line (hv : ¬Unwritten v.item) (h : ∀ x ∈ body.filterMap Piece.operand?, SourceVariable g.graph v x) :
    Gets (At g log phase) (pure [.assign 2 v.variableName body]) fun ls => Block g.graph v ls :=
  .pure fun _ hs => ⟨hs, .line hv h⟩

section
variable (hv : ¬ Unwritten v.item)
include hv

theorem unary_writes (function : String) : Writes g v (unary function v) := by
  intro log phase
  exact .bind_of (input_spec v) fun x hx => writes_line hv (by simpa using hx)

theorem flatten_writes : Writes g v (flatten v) := by
  intro log phase
  exact .bind_of (input_spec v) fun x hx => writes_line hv (by simpa [viewed] using hx)

theorem dropout_writes : Writes g v (dropout v) := by
  intro log phase
  exact .bind_of (input_spec v) fun x hx => writes_line hv (by simpa using hx)

theorem lrn_writes : Writes g v (lrn v) := by
  intro log phase
  refine .bind (keeps_need _) fun _ => ?_
  exact .bind_of (input_spec v) fun x hx => writes_line hv (by simpa using hx)

theorem batchNorm_writes : Writes g v (batchNorm v) := by
  intro log phase
  refine .bind (keeps_need _) fun _ => .look fun shape => ?_
  refine .bind keeps_lift fun features => .bind (keeps_setUp _) fun _ => ?_
  exact .bind_of (input_spec v) fun x hx => writes_line hv (by simpa using hx)

theorem dense_writes : Writes g v (dense v) := by
  intro log phase
  refine .bind (keeps_need _) fun _ => .look fun above => ?_
  refine .look fun shape => .bind (keeps_setUp _) fun _ => ?_
  refine .bind_of (input_spec v) fun y hy => .look fun sizes => ?_
  refine .bind (.get fun _ hs => hs) fun t => ?_
  dsimp only
  split
  on_goal 1 => refine .look fun m => .bind (keeps_setWeight _ _ _) fun _ => ?_
  all_goals
    refine writes_line hv ?_
    split <;> simpa [viewed] using hy

theorem combined_writes (hfind : g.graph.vertices.find? v.name = some v) (operator : String) :
    Writes g v (combined operator v) := by
  intro log phase
  exact .bind_of (inputs_spec hfind) fun xs hxs => writes_line hv (by simpa using hxs)

theorem concat_writes (hfind : g.graph.vertices.find? v.name = some v) : Writes g v (concat v) := by
  intro log phase
  refine .bind keeps_lift fun axis => .look fun sizes => ?_
  refine .bind keeps_lift fun axis => .bind_of (inputs_spec hfind) fun xs hxs => writes_line hv ?_
  simpa only [filterMap_append, filterMap_operands, filterMap, operand?_text, nil_append,
    append_nil] using hxs

theorem pad_writes : Writes g v (pad v) := by
  intro log phase
  refine .bind keeps_lift fun kind => ?_
  extract_lets rest
  have hrest (mode : String) : Gets (At g log phase) (rest mode)
      fun ls => Block g.graph v ls :=
    .look fun pads => .bind_of (input_spec v) fun x hx =>
      writes_line hv (by simpa using hx)
  split
  · exact .bind keeps_pure hrest
  · split
    · exact .bind keeps_pure hrest
    · split
      · exact .bind keeps_pure hrest
      · exact .bind .throw hrest

theorem pool_writes : Writes g v (pool v) := by
  intro log phase
  refine .bind keeps_lift fun strides => .bind keeps_lift fun rank => ?_
  refine .bind keeps_lift fun kind => ?_
  extract_lets rest
  have hrest (name : String) : Gets (At g log phase) (rest name)
      fun ls => Block g.graph v ls := by
    unfold rest
    split
    · exact .bind_of (input_spec v) fun x hx => writes_line hv (by simpa using hx)
    · refine .bind keeps_lift fun _ => .bind keeps_lift fun dilations => ?_
      refine .bind keeps_require fun _ => .look fun kernel => ?_
      refine .look fun strides => .look fun pads => ?_
      exact .bind_of (input_spec v) fun x hx => writes_line hv (by simpa using hx)
  split
  · exact .bind keeps_pure hrest
  · split
    · exact .bind keeps_pure hrest
    · exact .bind .throw hrest

theorem padded_spec : Gets (At g log phase) (padded v) fun p => ∀ body : List Piece,
    (∀ x ∈ body.filterMap Piece.operand?, x = p.2) →
      Block g.graph v (p.1 ++ [.assign 2 v.variableName body]) := by
  have hsource {x : String} (hx : SourceVariable g.graph v x) (body : List Piece)
      (hb : ∀ y ∈ body.filterMap Piece.operand?, y = x) :
      Block g.graph v ([] ++ [.assign 2 v.variableName body]) :=
    .line hv fun y hy => by rw [hb y hy]; exact hx
  refine .bind_of (input_spec v) fun x hx => .bind keeps_lift fun auto => ?_
  split
  · exact .pure fun s hs => ⟨hs, hsource hx⟩
  · refine .bind keeps_lift fun pads => .bind keeps_lift fun none => ?_
    split
    · exact .pure fun s hs => ⟨hs, hsource hx⟩
    · refine .look fun pads => .pure fun s hs => ⟨hs, fun body hb => ?_⟩
      exact .padded hv (by simpa using hx) hb

theorem conv_writes : Writes g v (conv v) := by
  intro log phase
  refine .bind (keeps_need _) fun _ => .look fun strides => ?_
  refine .look fun kernel => .bind keeps_lift fun ins => ?_
  refine .bind keeps_lift fun outs => .look fun group => ?_
  refine .look fun bias => .bind (keeps_setUp _) fun _ => ?_
  refine .bind_of (padded_spec hv) fun p hp => ?_
  refine .bind (.get fun _ hs => hs) fun t => ?_
  split
  on_goal 1 => refine .bind ((.look fun _ => .bind keeps_lift fun _ => keeps_setWeight _ _ _)) fun _ => ?_
  all_goals exact .pure fun s hs => ⟨hs, hp _ (by simp)⟩

end

theorem sigmoid_writes (hop : v.item.op = "Sigmoid") : Writes g v (sigmoid v) := by
  intro log phase
  exact .bind_of (input_spec v) fun x hx => .pure fun s hs => ⟨hs, .empty (.inl hop)⟩

theorem reduceMean_writes (hop : v.item.op = "ReduceMean") : Writes g v (reduceMean v) := by
  intro log phase
  have hints : Gets (At g log phase) (ints v "axes")
      fun axes => (v.item.get "axes" >>= Value.toInts) = .ok axes := by
    refine .bind_of (.lift fun a ha s hs => ⟨hs, ha⟩) fun a ha => ?_
    refine .lift fun axes haxes s hs => ⟨hs, ?_⟩
    rw [ha]
    exact haxes
  refine .bind_of hints fun axes haxes => ?_
  have hempty : axes = [] ↔ Unwritten v.item := by
    simp [Unwritten, hop, haxes]
  extract_lets rest
  have hrest (axes' : List Int) (hlen : axes' = [] ↔ axes = []) : Gets (At g log phase) (rest axes')
      fun ls => Block g.graph v ls := by
    refine .bind_of (input_spec v) fun x hx => ?_
    have hnone : axes'.mergeSort (fun a b => b ≤ a) = [] ↔ Unwritten v.item := by
      rw [← hempty, ← hlen, ← length_eq_zero_iff, length_mergeSort, length_eq_zero_iff]
    split
    · exact .bind keeps_pure fun keep => .pure fun s hs => ⟨hs, .means hx hnone⟩
    · exact .look fun keep => .pure fun s hs => ⟨hs, .means hx hnone⟩
  split
  · rename_i h
    refine .bind_of (p := fun axes' => axes' = []) (.pure fun s hs => ⟨hs, rfl⟩) fun axes' h' => ?_
    rw [List.isEmpty_iff] at h
    exact hrest axes' (by rw [h', h])
  · refine .look fun sizes => ?_
    refine .bind_of (p := fun axes' => axes' = axes.map (Axes.firstAxis sizes.length))
      (.pure fun s hs => ⟨hs, rfl⟩) fun axes' h' => hrest axes' ?_
    rw [h', map_eq_nil_iff]

end

/-! ## All rules -/

theorem variableName_self (y : String) : "self.".toList <+: (variableName ("self." ++ y)).toList := by
  refine ⟨y.toList.map fun c => if c = '/' || c = '-' then '_' else c, ?_⟩
  simp [variableName]

/-- What the lines before give a name to, and what needs no line: the argument, and parts of the module. -/
def Given (pre : List Line) (x : String) : Prop :=
  x = "x" ∨ "self.".toList <+: x.toList ∨ ∃ l ∈ pre, l.target = some x

theorem Given.mono {pre pre' : List Line} {x : String} (h : Given pre x) (hsub : pre ⊆ pre') : Given pre' x := by
  rcases h with h | h | ⟨l, hl, ht⟩
  · exact .inl h
  · exact .inr (.inl h)
  · exact .inr (.inr ⟨l, hsub hl, ht⟩)

def unsupported (op : String) : String := "Pytorch Emitter" ++ " has not supported operator [" ++ op ++ "]."

/-- What happens to a layer: a block is written, it gets a name that needs no line, or it is reported. -/
inductive Treated (g : LayerGraph) (log : List String) (phase : String) (v : Vertex Layer) :
    List Line → Scope → Prop
  | written {ls : List Line} {more : List String} {s : Scope} : At g (log ++ more) phase s →
      Block g.graph v ls → Treated g log phase v ls s
  | renamed {q : String} {s : Scope} : ¬ Unwritten v.item → Given [] (variableName q) →
      At { g with graph := g.graph.modify v.name fun u => { u with outputName := q } } log phase s →
      Treated g log phase v [] s
  | reported {s : Scope} : At g (log ++ [unsupported v.item.op, v.name]) phase s → Treated g log phase v [] s

section
variable {g : LayerGraph} {log : List String}

theorem Writes.treated {r : Emit (List Line)} (h : Writes g v r) :
    Triple (At g log phase) r (Treated g log phase v) := by
  refine (h log phase).post fun ls s hs => ?_
  have hat : At g (log ++ []) phase s := by
    rw [append_nil]
    exact hs.1
  exact .written hat hs.2

theorem rename_treated (hv : ¬Unwritten v.item) {q : String} (hq : Given [] (variableName q)) :
    Triple (At g log phase) (do rename v q; return []) (Treated g log phase v) := by
  refine .bind ?_ fun _ =>
      .pure fun s hs => .renamed hv hq hs
  exact .modify fun s hs => ⟨by rw [hs.graph], hs.log, hs.phase⟩

theorem unknown_treated (hop : v.item.op = "UNKNOWN") :
    Triple (At g log phase) (unknown v) (Treated g log phase v) :=
  .bind (say_spec v.name) fun _ => .pure fun _ hs => .written hs (.empty (.inr (.inl hop)))

theorem constant_treated (hv : ¬Unwritten v.item) : Triple (At g log phase) (constant v) (Treated g log phase v) :=
  .bind (keeps_setUp _) fun _ => rename_treated hv (.inr (.inl (variableName_self v.variableName)))

theorem rule_treated (hfind : g.graph.vertices.find? v.name = some v) {r : LayerRule}
    (h : rule v.item.op = some r) : Triple (At g log phase) (r v) (Treated g log phase v) := by
  unfold rule at h
  split at h
  all_goals cases h
  all_goals rename_i hop
  all_goals first
    | with_reducible exact (sigmoid_writes hop).treated
    | with_reducible exact (reduceMean_writes hop).treated
    | with_reducible exact unknown_treated hop
    | exact .throw
    | have hv : ¬Unwritten v.item := by simp [Unwritten, hop]
      first
      | with_reducible exact (conv_writes hv).treated
      | with_reducible exact (pool_writes hv).treated
      | with_reducible exact (dropout_writes hv).treated
      | with_reducible exact (dense_writes hv).treated
      | with_reducible exact (flatten_writes hv).treated
      | with_reducible exact (unary_writes hv _).treated
      | with_reducible exact (combined_writes hv hfind _).treated
      | with_reducible exact (concat_writes hv hfind).treated
      | with_reducible exact (batchNorm_writes hv).treated
      | with_reducible exact (pad_writes hv).treated
      | with_reducible exact (lrn_writes hv).treated
      | with_reducible exact constant_treated hv
      | exact rename_treated hv (.inl rfl)

theorem layer_treated (hfind : g.graph.vertices.find? v.name = some v) :
    Triple (At g log phase) (ruleOr "Pytorch Emitter" rule v) (Treated g log phase v) := by
  unfold ruleOr
  cases hr : rule v.item.op with
  | some r => exact rule_treated hfind hr
  | none =>
    refine .bind (say_spec (unsupported v.item.op)) fun _ => .bind (say_spec v.name) fun _ => ?_
    refine .pure fun s hs => .reported ?_
    rwa [append_assoc] at hs

end

/-! ## The walk -/

def Missing (g : Graph Layer) (ps : List String) (x : String) : Prop :=
  ∃ p ∈ ps, ∃ v, g.vertices.find? p = some v ∧ Unwritten v.item ∧ x = variableName p

structure Walked (g : Graph Layer) (out : String → String) (done : List String) (ls : List (String × Line)) :
    Prop where
  sound : ∀ pre k l post, ls = pre ++ (k, l) :: post → ∀ x ∈ l.reads,
    Given (pre.map (·.2)) x ∨ Missing g (g.sourcesOf k) x
  ready : ∀ m ∈ done, ∀ v, g.vertices.find? m = some v →
    Given (ls.map (·.2)) (variableName (out m)) ∨ Unwritten v.item ∧ out m = m
  owner : ∀ e ∈ ls, (∃ v, g.vertices.find? e.1 = some v ∧ ¬ Unwritten v.item) ∧
    (e.2.target = some (variableName e.1) ∨ e.2.target = some (variableName e.1 ++ "_pad"))

variable {ps : List String}

namespace Walked

variable {g' : Graph Layer} {out : String → String} {done : List String} {ls : List (String × Line)}

theorem found (h : Walked g out done ls) (hr : g.Renamed out g') {p x : String}
    {w : Vertex Layer} (hp : p ∈ ps) (hdone : p ∈ done) (hw : g'.vertices.find? p = some w)
    (hx : x = w.variableName) : Given (ls.map (·.2)) x ∨ Missing g ps x := by
  obtain ⟨u, hu, rfl⟩ := hr.of_find? hw
  rcases h.ready p hdone u hu with hg | ⟨hun, hout⟩
  · exact .inl (hx ▸ hg)
  · refine .inr ⟨p, hp, u, hu, hun, ?_⟩
    rw [hx, Vertex.variableName, hout]

theorem write (h : Walked g out done ls) (hr : g.Renamed out g') (hv : g.vertices.find? v.name = some v)
    (hn : out v.name = v.name) (hout : v.outputName = v.name) (hs : ∀ p ∈ g.sourcesOf v.name, p ∈ done)
    {new : List Line} (hb : Block g' v new) :
    Walked g out (done ++ [v.name]) (ls ++ new.map fun l => (v.name, l)) := by
  have hvar : v.variableName = variableName v.name := by rw [Vertex.variableName, hout]
  have hown := hb.own
  have htargets := hb.targets
  rw [hvar] at hown htargets
  have hnew (a : List Line) (l : Line) (b : List Line) (e : new = a ++ l :: b) (x : String) (hx : x ∈ l.reads) :
      Given (ls.map (·.2) ++ a) x ∨ Missing g (g.sourcesOf v.name) x := by
    rcases hb.reads a l b e x hx with ⟨p, w, hp, hw, hxw⟩ | ⟨l', hl', ht⟩
    · rw [hr.sourcesOf] at hp
      exact (h.found hr hp (hs p hp) hw hxw).imp (fun hg => hg.mono (subset_append_left ..)) id
    · exact .inl (.inr (.inr ⟨l', mem_append_right _ hl', ht⟩))
  have hlines : (ls ++ new.map fun l => (v.name, l)).map (·.2) = ls.map (·.2) ++ new := by
    simp [Function.comp_def]
  refine ⟨fun pre k l post e x hx => ?_, fun m hm u hu => ?_, fun e he => ?_⟩
  · rcases append_eq_append_iff.mp e with ⟨mid, rfl, hmid⟩ | ⟨mid, rfl, hmid⟩
    · obtain ⟨a, b, hab, rfl, hrest⟩ := map_eq_append_iff.mp hmid
      obtain ⟨c, b, rfl, ⟨⟩, rfl⟩ := map_eq_cons_iff.mp hrest
      simpa [Function.comp_def] using hnew a l b hab x hx
    · cases mid with
      | nil =>
        obtain ⟨c, b, hcb, ⟨⟩, rfl⟩ := map_eq_cons_iff.mp hmid.symm
        simpa using hnew [] l b hcb x hx
      | cons c mid =>
        obtain ⟨rfl, rfl⟩ := cons.inj hmid
        exact h.sound pre k l mid rfl x hx
  · rw [hlines]
    rcases mem_append.mp hm with hm | hm
    · exact (h.ready m hm u hu).imp (fun hg => hg.mono (subset_append_left ..)) id
    · obtain rfl := mem_singleton.mp hm
      cases hv.symm.trans hu
      rw [hn]
      rcases hown with ⟨⟨l, hl, ht⟩, -⟩ | ⟨-, hun⟩
      · exact .inl (.inr (.inr ⟨l, mem_append_right _ hl, ht⟩))
      · exact .inr ⟨hun, rfl⟩
  · rcases mem_append.mp he with he | he
    · exact h.owner e he
    · obtain ⟨l, hl, rfl⟩ := mem_map.mp he
      refine ⟨⟨v, hv, ?_⟩, htargets l hl⟩
      rcases hown with ⟨-, hun⟩ | ⟨rfl, -⟩
      · exact hun
      · cases hl

theorem rename (h : Walked g out done ls) {n q : String} (hq : Given [] (variableName q)) :
    Walked g (Graph.renameAt out n q) (done ++ [n]) ls where
  sound := h.sound
  ready := Graph.forall_renameAt (P := fun m q => ∀ v, g.vertices.find? m = some v →
    Given (ls.map (·.2)) (variableName q) ∨ Unwritten v.item ∧ q = m) h.ready fun _ _ => .inl (hq.mono (nil_subset _))
  owner := h.owner

/-- A name that is missing is not given after all, if no two layers share a variable. -/
theorem not_given (h : Walked g out done ls) {names : List String} (hnames : Apart names)
    (hkeys : ∀ m v, g.vertices.find? m = some v → m ∈ names)
    (hfree : ∀ m v, g.vertices.find? m = some v → Unwritten v.item → ¬Given [] (variableName m)) {x : String}
    (hx : Missing g ps x) : ¬Given (ls.map (·.2)) x := by
  obtain ⟨p, -, v, hv, hun, rfl⟩ := hx
  intro hg
  rcases hg with hg | hg | ⟨l, hl, ht⟩
  · exact hfree p v hv hun (.inl hg)
  · exact hfree p v hv hun (.inr (.inl hg))
  · obtain ⟨⟨k, l⟩, he, rfl⟩ := mem_map.mp hl
    obtain ⟨⟨u, hu, hwritten⟩, htarget⟩ := h.owner _ he
    rcases htarget with htarget | htarget
    · obtain rfl : k = p := hnames.inj (hkeys k u hu) (hkeys p v hv) (Option.some.inj (htarget.symm.trans ht))
      cases hu.symm.trans hv
      exact hwritten hun
    · exact hnames.pad_ne (hkeys k u hu) (hkeys p v hv) (Option.some.inj (htarget.symm.trans ht))

end Walked

/-- The walk after some layers, as the scope shows it. Nothing is said about the lines once a layer has
been reported. -/
def Walking (g : Graph Layer) (done : List String) (out : String → String) (body : List (String × List Line))
    (s : Scope) : Prop :=
  s.graph.graph.outputs = g.outputs ∧ ((∀ op, unsupported op ∉ s.log) → Walked g out done (tagged body))

theorem returnLine_reads {g : LayerGraph} {log : List String} :
    Gets (At g log phase) returnLine fun l => ∀ x ∈ l.reads, ∃ m ∈ g.graph.outputs, ∃ w,
    g.graph.vertices.find? m = some w ∧ x = w.variableName := by
  refine .bind_of layers_spec fun h hh => .bind_of (variableNames_spec h.outputs) fun xs hxs => ?_
  subst hh
  refine .pure fun s hs => ⟨hs, fun x hx => hxs x ?_⟩
  simpa only [Line.reads, filterMap_append, filterMap_operands, filterMap, operand?_text,
    nil_append] using hx

/-! ## The code of a network -/

theorem emitAll_walking {n : Network} {w : Option Weights} {body : List (String × List Line)}
    {s : Scope} (h : (emitAll (ruleOr "Pytorch Emitter" rule)).outcome (startScope n w phase) = (.ok body, s)) :
    body.map (·.1) = (graphOf n).order ∧ ∃ out, (graphOf n).Renamed out s.graph.graph ∧
      Walking (graphOf n) (graphOf n).order out body s := by
  have hstart : Walked (graphOf n) id [] (tagged []) := ⟨fun pre k l post e => by simp [tagged] at e, nofun, nofun⟩
  refine emitAll_walk (I := Walking (graphOf n)) rfl ⟨rfl, fun _ => hstart⟩ ?_ h
  rintro done out body v s ls t hd ⟨houtputs, hw⟩ hrun
  simp only [Walking, tagged_concat]
  cases layer_treated hd.found s ⟨rfl, rfl, rfl⟩ ls t hrun with
  | written hat hblock =>
    refine ⟨out v.name, ?_, by rw [hat.graph, houtputs], fun hq => ?_⟩
    · rw [Graph.renameAt_same, hat.graph]
      exact hd.renamed
    · rw [hat.log] at hq
      rw [Graph.renameAt_same]
      exact (hw fun op h => hq op (mem_append_left _ h)).write hd.renamed hd.vertex (hd.fresh _ hd.new)
        (find?_graphOf hd.vertex).2.2.2 (hd.sources _ (by simp)) hblock
  | @renamed q _ _ hq hat =>
    refine ⟨q, by rw [hat.graph]; exact hd.renamed.modify v.name q, by rw [hat.graph]; exact houtputs, fun hlog => ?_⟩
    rw [hat.log] at hlog
    rw [map_nil, append_nil]
    exact (hw hlog).rename hq
  | reported hat =>
    refine ⟨out v.name, ?_, by rw [hat.graph, houtputs], fun hq => absurd (by simp [hat.log]) (hq v.item.op)⟩
    rw [Graph.renameAt_same, hat.graph]
    exact hd.renamed

/-- The lines of the function that runs a network, each with the layers whose variables it may read; the last
line returns the outputs. -/
def forward (g : Graph Layer) (body : List (String × List Line)) (last : Line) : List (List String × Line) :=
  ((tagged body).map fun e => (g.sourcesOf e.1, e.2)) ++ [(g.outputs, last)]

theorem map_snd_forward (g : Graph Layer) (body : List (String × List Line)) (last : Line) :
    (forward g body last).map (·.2) = allLines body ++ [last] := by
  rw [forward, map_append, map_map, ← map_snd_tagged]
  rfl

theorem split_forward {g : Graph Layer} {body : List (String × List Line)} {last l : Line}
    {pre post : List (List String × Line)} (e : forward g body last = pre ++ (ps, l) :: post) :
    ps = g.outputs ∧ l = last ∧ pre.map (·.2) = (tagged body).map (·.2) ∨
      ∃ pre' k post', tagged body = pre' ++ (k, l) :: post' ∧ ps = g.sourcesOf k ∧ pre.map (·.2) = pre'.map (·.2) := by
  rcases Graph.split_concat e with ⟨rfl, he⟩ | ⟨post', e⟩
  · cases he
    exact .inl ⟨rfl, rfl, by rw [map_map]; rfl⟩
  · obtain ⟨pre', rest, htagged, rfl, hrest⟩ := map_eq_append_iff.mp e
    obtain ⟨⟨k, l⟩, rest, rfl, hk, -⟩ := map_eq_cons_iff.mp hrest
    cases hk
    exact .inr ⟨pre', k, rest, htagged, rfl, by rw [map_map]; rfl⟩

theorem code_eq_ok {s₀ s : Scope} {text : String} (h : code.outcome s₀ = (.ok text, s)) :
    ∃ body last helpers s₁, (emitAll (ruleOr "Pytorch Emitter" rule)).outcome s₀ = (.ok body, s₁) ∧
      returnLine.outcome s₁ = (.ok last, s) ∧
      text = PyTorchText.head ++ "\n" ++ "    " ++ PyTorchText.setupHead ++ "\n" ++ render s.setup ++ "\n" ++
        "    def forward(self, x):\n" ++ render (allLines body) ++ last.render ++ "\n" ++ helpers := by
  obtain ⟨u, _, ⟨⟩, h⟩ := step_cases h
  obtain ⟨_, s₀', hloaded, h⟩ := step_cases h
  obtain rfl := keeps_require s₀ rfl _ s₀' hloaded
  obtain ⟨body, s₁, hbody, h⟩ := step_cases h
  obtain ⟨last, s₂, hlast, h⟩ := step_cases h
  obtain ⟨helpers, s₃, hhelp, h⟩ := step_cases h
  obtain ⟨t, _, ⟨⟩, h⟩ := step_cases h
  obtain ⟨rfl, rfl⟩ := pure_eq_ok.mp h
  obtain rfl := helperText_outcome hhelp
  exact ⟨body, last, helpers, s₁, hbody, hlast, rfl⟩

/-- **Operands of the code.** When a network without a cycle is turned into code and no layer is reported, each
operand of a line of the function that runs it, the last line included, is given, or it is the variable of an
unwritten layer that the line reads; and it is not both, if no two layers share a variable. -/
theorem forward_operands (n : Network) (w : Option Weights) (phase text : String) (s : Scope)
    (hacyclic : ∀ a, ¬ Relation.TransGen n.Feeds a a)
    (hrun : code.outcome (startScope n w phase) = (.ok text, s)) (hquiet : ∀ op, unsupported op ∉ s.log) :
    ∃ body last helpers s₁,
      (emitAll (ruleOr "Pytorch Emitter" rule)).outcome (startScope n w phase) = (.ok body, s₁) ∧
      returnLine.outcome s₁ = (.ok last, s) ∧ body.map (·.1) = (graphOf n).order ∧
      text = PyTorchText.head ++ "\n" ++ "    " ++ PyTorchText.setupHead ++ "\n" ++ render s.setup ++ "\n" ++
        "    def forward(self, x):\n" ++ render ((forward (graphOf n) body last).map (·.2)) ++ "\n" ++
        helpers ∧
      ∀ pre ps l post, forward (graphOf n) body last = pre ++ (ps, l) :: post → ∀ x ∈ l.reads,
        (Given (pre.map (·.2)) x ∨ Missing (graphOf n) ps x) ∧
        (Apart n.names → (∀ l ∈ n.layers, Unwritten l → ¬ Given [] (variableName l.name)) →
          ¬ (Given (pre.map (·.2)) x ∧ Missing (graphOf n) ps x)) := by
  obtain ⟨body, last, helpers, s₁, hbody, hlast, htext⟩ := code_eq_ok hrun
  obtain ⟨hmap, out, hren, houtputs, hwalk⟩ := emitAll_walking hbody
  obtain ⟨hat, hreads⟩ := returnLine_reads s₁ ⟨rfl, rfl, rfl⟩ last s hlast
  have hdone := hwalk (hat.log ▸ hquiet)
  refine ⟨body, last, helpers, s₁, hbody, hlast, hmap, ?_, fun pre ps l post e x hx => ⟨?_, ?_⟩⟩
  · rw [htext, map_snd_forward]
    simp [render, String.append_assoc]
  · rcases split_forward e with ⟨rfl, rfl, hpre⟩ | ⟨pre', k, post', htagged, rfl, hpre⟩
    · obtain ⟨m, hm, v, hv, hxv⟩ := hreads x hx
      rw [hpre]
      obtain ⟨u, hu, -⟩ := hren.of_find? hv
      exact hdone.found hren (houtputs ▸ hm)
        ((mem_order_of_acyclic hacyclic).mpr (Table.mem_keys_of_find? hu)) hv hxv
    · rw [hpre]
      exact hdone.sound pre' k l post' htagged x hx
  · rintro hapart hfree ⟨hgiven, hmissing⟩
    refine hdone.not_given hapart (fun m v hv => ?_) (fun m v hv hun => ?_) hmissing (hgiven.mono ?_)
    · obtain ⟨hitem, hname, -⟩ := find?_graphOf hv
      exact hname ▸ mem_map_of_mem hitem
    · obtain ⟨hitem, hname, -⟩ := find?_graphOf hv
      exact hname ▸ hfree _ hitem hun
    · rcases split_forward e with ⟨-, -, hpre⟩ | ⟨pre', k, post', htagged, -, hpre⟩
      · rw [hpre]
        exact .refl _
      · rw [hpre, htagged, map_append]
        exact subset_append_left ..

def shiftedNet : Network := { layers := [
  { name := "data", op := "DataInput" }, { name := "k", op := "Constant" },
  { name := "r", op := "Relu", inputs := ["data"] }, { name := "a", op := "Add", inputs := ["r", "k"] }] }

theorem forward_operands_shifted : (∀ a, ¬ Relation.TransGen shiftedNet.Feeds a a) ∧
    ∃ text s body last s₁, code.outcome (startScope shiftedNet (some ∅) "test") = (.ok text, s) ∧ s.log = [] ∧
      (emitAll (ruleOr "Pytorch Emitter" rule)).outcome (startScope shiftedNet (some ∅) "test") = (.ok body, s₁) ∧
      returnLine.outcome s₁ = (.ok last, s) ∧
      ∀ pre ps l post, forward (graphOf shiftedNet) body last = pre ++ (ps, l) :: post →
        ∀ x ∈ l.reads, Given (pre.map (·.2)) x := by
  have hacyclic : ∀ a, ¬Relation.TransGen shiftedNet.Feeds a a := acyclic_of_order (by decide)
  obtain ⟨text, s, hrun, hlog⟩ : ∃ text s,
      code.outcome (startScope shiftedNet (some ∅) "test") = (.ok text, s) ∧ s.log = [] := ⟨_, _, rfl, rfl⟩
  obtain ⟨body, last, _, s₁, hbody, hlast, -, -, hreads⟩ :=
    forward_operands shiftedNet (some ∅) "test" text s hacyclic hrun fun op => by simp [hlog]
  refine ⟨hacyclic, text, s, body, last, s₁, hrun, hlog, hbody, hlast, fun pre ps l post e x hx => ?_⟩
  refine (hreads pre ps l post e x hx).1.resolve_right ?_
  rintro ⟨p, -, v, hv, hun, -⟩
  have hall : ∀ l ∈ shiftedNet.layers, ¬Unwritten l := by simp [shiftedNet, Unwritten]
  exact hall _ (find?_graphOf hv).1 hun

def squashedNet : Network := { layers := [
  { name := "data", op := "DataInput" }, { name := "s", op := "Sigmoid", inputs := ["data"] },
  { name := "r", op := "Relu", inputs := ["s"] }] }

/-- No line is written for a sigmoid, so the code of the rectifier behind it reads a variable that nothing
assigns. -/
theorem forward_reads_unassigned : (∀ a, ¬ Relation.TransGen squashedNet.Feeds a a) ∧
    ∃ text s body last s₁ line, code.outcome (startScope squashedNet (some ∅) "test") = (.ok text, s) ∧
      s.log = [] ∧
      (emitAll (ruleOr "Pytorch Emitter" rule)).outcome (startScope squashedNet (some ∅) "test") = (.ok body, s₁) ∧
      returnLine.outcome s₁ = (.ok last, s) ∧ line ∈ (forward (graphOf squashedNet) body last).map (·.2) ∧
      "s" ∈ line.reads ∧ ¬ Given ((forward (graphOf squashedNet) body last).map (·.2)) "s" := by
  refine ⟨acyclic_of_order (by decide), _, _, _, _, _, _, rfl, rfl, rfl, rfl,
    .head _, by decide, ?_⟩
  rintro (h | h | h)
  · exact absurd h (by decide)
  · exact absurd h (by decide)
  · exact absurd h (by decide)

end NetBridge.Target.PyTorch
