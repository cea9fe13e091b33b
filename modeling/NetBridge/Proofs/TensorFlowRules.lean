import NetBridge.Target.TensorFlow
import NetBridge.Proofs.CodeSteps

/-!
# The lines of a layer in TensorFlow code

Every rule but that for a skipped dropout writes one `Block`. `rule_writes` collects the rules, and `layer_spec` says
all that can happen to a layer.
-/

namespace NetBridge.Target.TensorFlow

open Code Run

inductive Block (g : Graph Layer) (v : Vertex Layer) : List Line → Prop
  | plain {l : Line} : l.target = some v.variableName → (∀ x ∈ l.reads, SourceVariable g v x) → Block g v [l]
  | padded {pad l : Line} : pad.target = some (v.variableName ++ "_pad") →
      (∀ x ∈ pad.reads, SourceVariable g v x) → l.target = some v.variableName →
      (∀ x ∈ l.reads, x = v.variableName ++ "_pad") → Block g v [pad, l]

inductive PaddedFrom (g : Graph Layer) (v : Vertex Layer) : Padded → Prop
  | source {x padding : String} : SourceVariable g v x → PaddedFrom g v ⟨[], x, padding⟩
  | line {pad : Line} {padding : String} : pad.target = some (v.variableName ++ "_pad") →
      (∀ x ∈ pad.reads, SourceVariable g v x) → PaddedFrom g v ⟨[pad], v.variableName ++ "_pad", padding⟩

variable {g : LayerGraph} {body : List Piece} {p : Padded} {v : Vertex Layer}

theorem PaddedFrom.block {g : Graph Layer} (hp : PaddedFrom g v p)
    {l : Line} (ht : l.target = some v.variableName) (hl : ∀ x ∈ l.reads, x = p.input) :
    Block g v (p.lines ++ [l]) := by
  cases hp with
  | source hx => exact .plain ht fun y hy => by rw [hl y hy]; exact hx
  | line hpad hreads => exact .padded hpad hreads ht hl

section
variable {log : List String} {phase : String}

theorem padded_spec (extra : String) : Gets (At g log phase) (padded v extra)
    fun p => PaddedFrom g.graph v p := by
  refine .look fun mode => ?_
  cases mode with
  | some mode =>
    refine .bind_of (input_spec v) fun x hx => ?_
    cases mode with
    | valid => exact .pure fun s hs => ⟨hs, .source hx⟩
    | same => exact .pure fun s hs => ⟨hs, .source hx⟩
    | other t => exact .throw
  | none =>
    refine .look fun pads => .bind_of (input_spec v) fun x hx => ?_
    split
    · exact .pure fun s hs => ⟨hs, .source hx⟩
    · exact .pure fun s hs => ⟨hs, .line rfl (by simpa using hx)⟩

def Writes (g : LayerGraph) (v : Vertex Layer) (r : Emit (List Line)) : Prop :=
  ∀ log phase, Triple (At g log phase) r fun ls s => At g log phase s ∧ Block g.graph v ls

theorem writes_line (h : ∀ x ∈ body.filterMap Piece.operand?, SourceVariable g.graph v x) :
    Gets (At g log phase) (pure [.assign 1 v.variableName body]) fun ls => Block g.graph v ls :=
  .pure fun _ hs => ⟨hs, .plain rfl h⟩

theorem writes_padded (hp : PaddedFrom g.graph v p) (h : ∀ x ∈ body.filterMap Piece.operand?, x = p.input) :
    Gets (At g log phase) (pure (p.lines ++ [.assign 1 v.variableName body]))
      fun ls => Block g.graph v ls :=
  .pure fun _ hs => ⟨hs, hp.block rfl h⟩

/-! ## Layers with one source -/

theorem writes_input {body : String → List Piece}
    (h : ∀ x, ∀ y ∈ (body x).filterMap Piece.operand?, y = x) :
    Gets (At g log phase) (input v >>= fun x => pure [.assign 1 v.variableName (body x)])
      fun ls => Block g.graph v ls :=
  .bind_of (input_spec v) fun x hx => writes_line fun y hy => h x y hy ▸ hx

theorem unary_writes (function : String) : Writes g v (unary function v) :=
  fun _ _ => writes_input (by simp)

theorem flatten_writes : Writes g v (flatten v) :=
  fun _ _ => writes_input (by simp)

theorem squeeze_writes : Writes g v (squeeze v) :=
  fun _ _ => writes_input (by simp)

theorem prelu_writes : Writes g v (prelu v) :=
  fun _ _ => .bind (keeps_need _) fun _ => writes_input (by simp)

theorem batchNorm_writes : Writes g v (batchNorm v) := by
  intro log phase
  refine .bind (keeps_need _) fun _ => .bind_of (input_spec v) fun x hx => ?_
  exact .look fun _ => writes_line (by simpa using hx)

theorem reshape_writes : Writes g v (reshape v) := by
  intro log phase
  refine .bind_of (input_spec v) fun x hx => ?_
  exact .look fun _ => writes_line (by simpa using hx)

theorem reduceMean_writes : Writes g v (reduceMean v) := by
  intro log phase
  refine .bind_of (input_spec v) fun x hx => .look fun _ => ?_
  exact .look fun _ => writes_line (by simpa using hx)

theorem lrn_writes : Writes g v (lrn v) := by
  intro log phase
  refine .bind_of (input_spec v) fun x hx => ?_
  refine .bind keeps_lift fun _ => .bind keeps_lift fun _ => ?_
  exact .look fun _ => writes_line (by simpa using hx)

theorem dense_writes : Writes g v (dense v) := by
  intro log phase
  refine .bind (.get fun _ hs => hs) fun _ => ?_
  refine .bind_of (input_spec v) fun x hx => writes_line ?_
  simpa only [List.filterMap, operand?_text, operand?_use, List.mem_singleton, forall_eq] using hx

theorem crop_writes : Writes g v (crop v) := by
  intro log phase
  refine .look fun _ => .bind keeps_require fun _ => ?_
  refine .look fun _ => .bind_of (input_spec v) fun x hx => ?_
  refine .bind keeps_lift fun _ => .bind keeps_lift fun _ => ?_
  refine .bind keeps_lift fun _ => .bind keeps_lift fun _ => ?_
  exact writes_line (by simpa using hx)

theorem pad_writes : Writes g v (pad v) := by
  intro log phase
  refine .look fun pads => .bind keeps_lift fun mode => ?_
  -- the three modes differ in a word of the text only
  extract_lets rest
  have hrest (name : String) : Gets (At g log phase) (rest name) fun ls =>
      Block g.graph v ls := writes_input (by simp)
  split
  · exact .bind keeps_pure fun name => hrest name
  · split
    · exact .bind keeps_pure fun name => hrest name
    · split
      · exact .bind keeps_pure fun name => hrest name
      · exact .bind .throw fun name => hrest name

/-! ## Layers without or with many sources -/

theorem constant_writes : Writes g v (constant v) := by
  intro log phase
  exact writes_line (by simp)

theorem dataInput_writes : Writes g v (dataInput v) := by
  intro log phase
  refine .bind keeps_require fun _ => ?_
  split
  · refine .look fun e => .bind keeps_pure fun elem => ?_
    exact writes_line (by simp)
  · exact .bind keeps_pure fun elem => writes_line (by simp)

theorem combined_writes (hv : g.graph.vertices.find? v.name = some v) (operator : String) :
    Writes g v (combined operator v) := by
  intro log phase
  exact .bind_of (inputs_spec hv) fun xs hxs => writes_line (by simpa using hxs)

theorem concat_writes (hv : g.graph.vertices.find? v.name = some v) : Writes g v (concat v) := by
  intro log phase
  refine .bind_of (inputs_spec hv) fun xs hxs => writes_line ?_
  simpa only [List.filterMap_append, filterMap_operands, List.filterMap, operand?_text, List.nil_append,
    List.append_nil] using hxs

/-! ## Layers that may be padded -/

theorem conv_writes : Writes g v (conv v) ∧ Writes g v (convTranspose v) := by
  constructor
  all_goals
    intro log phase
    refine .bind (keeps_need _) fun _ => .look fun _ => ?_
    refine .bind_of (padded_spec "") fun p hp => .look fun _ => ?_
    exact writes_padded hp (by simp)

theorem helped_writes (function : String) {strides : Vertex Layer → Emit (List Int)}
    (hs : ∀ log phase, Keeps (At g log phase) (strides v)) : Writes g v (helped function strides v) := by
  intro log phase
  refine .bind (keeps_need _) fun _ => .bind (hs log phase) fun _ => ?_
  exact .bind_of (padded_spec "") fun p hp => writes_padded hp (by simp)

theorem pool_writes : Writes g v (pool v) := by
  intro log phase
  refine .bind keeps_lift fun kind => ?_
  extract_lets rest
  -- what follows the choice of the function is the same for each kind
  have hrest (op : String × String) : Gets (At g log phase) (rest op) fun ls =>
      Block g.graph v ls := by
    refine .bind keeps_lift fun _ => .bind keeps_lift fun rank => ?_
    dsimp only
    split
    · exact writes_input (by simp)
    · refine .look fun _ => .look fun _ => ?_
      exact .bind_of (padded_spec op.2) fun p hp => writes_padded hp (by simp)
  split
  · exact .bind keeps_pure fun op => hrest op
  · split
    · exact .bind keeps_pure fun op => hrest op
    · exact .bind .throw fun op => hrest op

/-! ## Dropout -/

theorem dropout_train : Gets (At g log "train") (dropout v)
    fun ls => Block g.graph v ls := by
  refine .bind_of (.get fun s hs => ⟨hs, hs.phase⟩) fun t ht => ?_
  rw [if_pos ht]
  exact writes_input (by simp)

theorem dropout_skip (h : phase ≠ "train") : Triple (At g log phase) (dropout v) fun ls s => ls = [] ∧
    ∃ u p w, g.graph.vertices.find? v.name = some u ∧ u.sources.head? = some p ∧
      g.graph.vertices.find? p = some w ∧
      At { g with graph := g.graph.modify v.name fun u => { u with outputName := w.outputName } } log
        phase s := by
  refine .bind_of (.get fun s hs => ⟨hs, hs.phase⟩) fun t ht => ?_
  rw [if_neg (ht ▸ h)]
  exact (skip_spec v).bind fun _ => .pure fun s hs => ⟨rfl, hs⟩

end

/-! ## All rules -/

theorem rule_writes (hv : g.graph.vertices.find? v.name = some v)
    {op : String} {r : LayerRule} (h : rule op = some r) (hu : op ≠ "UNKNOWN") (hd : op ≠ "Dropout") :
    Writes g v (r v) := by
  unfold rule at h
  split at h
  all_goals cases h
  · exact conv_writes.1
  · exact constant_writes
  · exact pool_writes
  · exact absurd rfl hu
  · exact combined_writes hv _
  · exact combined_writes hv _
  · exact combined_writes hv _
  · exact dataInput_writes
  · exact absurd rfl hd
  · exact dense_writes
  · exact flatten_writes
  · exact reshape_writes
  · exact unary_writes _
  · exact unary_writes _
  · exact unary_writes _
  · exact unary_writes _
  · exact unary_writes _
  · exact prelu_writes
  · exact unary_writes _
  · exact unary_writes _
  · exact fun _ _ => .throw
  · exact fun _ _ => .throw
  · exact fun _ _ => .throw
  · exact concat_writes hv
  · exact batchNorm_writes
  · exact pad_writes
  · exact squeeze_writes
  · exact reduceMean_writes
  · exact lrn_writes
  · exact helped_writes _ fun _ _ => keeps_looking
  · exact helped_writes _ fun _ _ => keeps_pure
  · exact crop_writes
  · exact conv_writes.2

def unsupported (op : String) : String :=
  "TensorflowEmitter" ++ " has not supported operator [" ++ op ++ "]."

def Skips (phase : String) (v : Vertex Layer) : Prop := v.item.op = "Dropout" ∧ phase ≠ "train"

inductive Treated (g : LayerGraph) (log : List String) (phase : String) (v : Vertex Layer) :
    List Line → Scope → Prop
  | written {ls : List Line} {s : Scope} : ¬ Skips phase v → At g log phase s → Block g.graph v ls →
      Treated g log phase v ls s
  | skipped {u w : Vertex Layer} {p : String} {s : Scope} : Skips phase v →
      g.graph.vertices.find? v.name = some u → u.sources.head? = some p →
      g.graph.vertices.find? p = some w →
      At { g with graph := g.graph.modify v.name fun u => { u with outputName := w.outputName } } log
        phase s → Treated g log phase v [] s
  | reported {s : Scope} : At g (log ++ [unsupported v.item.op, v.name]) phase s → Treated g log phase v [] s

theorem layer_spec {log : List String} {phase : String}
    (hv : g.graph.vertices.find? v.name = some v) (hu : v.item.op ≠ "UNKNOWN") :
    Triple (At g log phase) (ruleOr "TensorflowEmitter" rule v) (Treated g log phase v) := by
  unfold ruleOr
  cases hr : rule v.item.op with
  | none =>
    refine .bind (say_spec (unsupported v.item.op)) fun _ => .bind (say_spec v.name) fun _ => ?_
    refine .pure fun s hs => .reported ?_
    rwa [List.append_assoc] at hs
  | some r =>
    by_cases hd : v.item.op = "Dropout"
    · obtain rfl : dropout = r := by rw [hd] at hr; exact Option.some.inj hr
      by_cases hp : phase = "train"
      · subst hp
        exact dropout_train.post fun ls s h => .written (fun hs => hs.2 rfl) h.1 h.2
      · refine (dropout_skip hp).post ?_
        rintro _ s ⟨rfl, u, p, w, hu, hs, hw, hat⟩
        exact .skipped ⟨hd, hp⟩ hu hs hw hat
    · exact (rule_writes hv hr hu hd log phase).post fun ls s h =>
        .written (fun hs => hd hs.1) h.1 h.2

end NetBridge.Target.TensorFlow
