import NetBridge.Proofs.OperandNames
import NetBridge.Source.Checkpoint
import NetBridge.Source.Frozen

/-!
# What the layers of a TensorFlow graph read

A rule makes a layer of the name of its vertex, or passes its input on, or the vertex gets no layer
(`convertNode_makes`). So a layer reads layers, or vertices that have none and are dropped later; only a normalisation
put together from a chain also reads a vertex whose turn comes after it.
-/

namespace NetBridge

-- rules with many steps
set_option synthInstance.maxSize 20000

/-! ## Graphs with a checkpoint -/

namespace Source.Checkpoint

open Run Source.TensorFlow Source.TensorFlow.Course

/-- The vertices that get no layer in any graph: those of training, of the scopes that are left out, those
whose operator has no rule, and those of a dropout behind the division. -/
def silent (name op : String) : Bool :=
  trainingStarts.any (Text.startsWith name) || (scopes name).any leftOut.contains || (rule? op).isNone ||
    op == "Floor" ||
    (op == "Add" && decide ((scopes name).length ≥ 3) && (Value.nth (scopes name) (-2)).toOption == some "dropout")

def chained (name op : String) : Bool :=
  op == "Add" && decide ((scopes name).length ≥ 3) && (Value.nth (scopes name) (-2)).toOption == some "batchnorm"

def course (g : Graph Layer) (nodes : List Layer) : Course where
  graph := g
  silent := silent
  chained := chained
  passes op := op == "Identity"
  distinct := (nodes.map (·.name)).Nodup

/-! ## Steps of a rule -/

section
variable {R : Builder Layer State → Builder Layer State → Prop} {v : Vertex Layer} {k : Nat}

instance (n : String) : Stays R (stored n) := by unfold stored; infer_instance

instance : Stays R (floor v) := by unfold floor; infer_instance

instance [∀ line, Stays R (say line : Convert Unit)] : Stays R (unknown v) := by unfold unknown; infer_instance

instance [∀ m key, Stays R (claimAttr m key : Convert Attr)] : Stays R (unitsOf v) := by unfold unitsOf; infer_instance

instance [∀ m key, Stays R (claimAttr m key : Convert Attr)]
    [∀ d m path mark, Stays R (follow d m path mark : Convert (Option (Vertex Layer)))] : Stays R (secondConstant v)
    := by
  unfold secondConstant; infer_instance

variable [∀ m f, Stays R (changeAttr k m f : Convert Unit)]

instance [∀ m, Stays R (attr k m : Convert Attr)] (t : Tensor) : Stays R (setAxes k t) := by
  refine .step fun _ => ?_
  split <;> infer_instance

instance [∀ m key, Stays R (claimAttr m key : Convert Attr)] (keep : Vertex Layer) :
    Stays R (setKeepProb k keep) := by unfold setKeepProb; infer_instance

variable [∀ key x, Stays R (setWeight v.name key x)]

instance (name n : String) : Stays R (storeWeight v name n) := by unfold storeWeight; infer_instance

instance (name : String) (node : Option (Vertex Layer)) : Stays R (storeKnown v name node) := by
  unfold storeKnown; infer_instance

instance (name : String) (node : Option (Vertex Layer)) : Stays R (storePart v k name node) := by
  unfold storePart
  split <;> infer_instance

instance (t : LiteralTensor) : Stays R (setConstantScale v k t) := by
  unfold setConstantScale
  split <;> infer_instance

variable [∀ d m path mark, Stays R (follow d m path mark : Convert (Option (Vertex Layer)))]

instance : Stays R (setScale v k) := by unfold setScale; infer_instance

variable [∀ m, Stays R (attr k m : Convert Attr)] [∀ m key, Stays R (claimAttr m key : Convert Attr)]

instance (sum : Vertex Layer) : Stays R (storeBias v k sum) := by unfold storeBias; infer_instance

instance [∀ vs, Stays R (assign k vs : Convert Unit)] : Stays R (setKernel v k) := by
  unfold setKernel; infer_instance

end

section
variable {c : Course} {done : List String} {k : Nat} {v : Vertex Layer}

instance (op : String) : Stays (c.Ongoing done k v.name) (identify v k op) := by unfold identify; infer_instance

theorem identify_blank (op : String) :
    Triple (c.Blank done k) (identify v k op) fun _ => c.Making done k v.name :=
  setName_blank.bind fun _ => keeps_making

theorem makes_carry {op : String} {stop : Option Nat} {f : Nat → Convert Unit}
    (hf : ∀ done k, Stays (c.Ongoing done k v.name) (f k)) : c.Makes v (carry v op stop >>= f) :=
  makes_after (fun _ hv => newLayer_blank.bind fun _ => (identify_blank op).bind fun _ =>
    (readSources_making hv.sources 0 stop).bind fun _ => .pure fun _ h => h) hf

/-! ## Rules -/

theorem division_makes : c.Makes v (division v) :=
  fun done hv => keeps_tidy.bind fun _ => keeps_tidy.bind fun _ => makes_carry (fun _ _ => inferInstance) done hv

theorem normChain_makes (hc : c.chained v.name v.item.op = true) : c.Makes v (normChain v) := by
  refine makes_layer (fun _ _ => identify_blank "BatchNorm") fun done k hv => ?_
  have := ongoing_close (σ := State) (k := k) hv hc
  infer_instance

theorem chained_add {name : String} (h : (decide ((scopes name).length ≥ 3) &&
    decide ((Value.nth (scopes name) (-2)).toOption = some "batchnorm")) = true) : chained name "Add" = true := by
  simp only [Bool.and_eq_true, decide_eq_true_eq] at h
  simp [chained, h.1, h.2]

theorem add_makes (g : Graph Layer) (nodes : List Layer) (hop : v.item.op = "Add") :
    (course g nodes).Makes v (add v) := by
  unfold add
  dsimp only
  split
  · rename_i h
    refine makes_silent ?_ _
    simp only [Bool.and_eq_true, decide_eq_true_eq] at h
    simp [course, silent, hop, h.1, h.2]
  · split
    · rename_i h
      exact normChain_makes (hop ▸ chained_add h)
    · exact makes_carry fun _ _ => inferInstance

theorem rule_makes (g : Graph Layer) (nodes : List Layer) {rule : Vertex Layer → Convert Unit}
    (h : rule? v.item.op = some rule) : (course g nodes).Makes v (rule v) := by
  unfold rule? at h
  split at h
  all_goals cases h
  all_goals
    rename_i hop
    first
    | with_reducible exact add_makes g nodes hop
    | with_reducible exact division_makes
    | with_reducible exact makes_silent (by simp [course, silent, hop]) (floor v)
    | with_reducible exact makes_passOn (by simp [course, hop])
    -- the others carry the vertex over and work on its layer then
    | exact makes_carry fun _ _ => inferInstance

theorem convertNode_makes (g : Graph Layer) (nodes : List Layer) (v : Vertex Layer) :
    (course g nodes).Makes v (convertNode v) := by
  unfold convertNode
  split
  · rename_i rule h
    exact rule_makes g nodes h
  · rename_i h
    exact makes_silent (by simp [course, silent, h]) (unknown v)

end

theorem convert_operands {nodes : List Layer} {checkpoint : Option (Table Tensor)} {b : Builder Layer State}
    (hrun : convert.outcome (start nodes checkpoint) = (.ok (), b)) {l : Layer} (hl : l ∈ b.layers.toList)
    {x : String} (hx : x ∈ l.inputs) : (course (start nodes checkpoint).graph nodes).Operand b l x := by
  refine convertKept_operand nodes (convertNode_makes (graphOf nodes).1 nodes) (fun v hv => ?_)
    (fun v hv => ?_) rfl preceded_graphOf rfl rfl hrun hl hx
  · simp [course, silent, hv]
  · simp [course, silent, hv]

end Source.Checkpoint

/-! ## Frozen graphs

A change of the range of quantised numbers gets no layer, and yet the node behind it is read under its name. -/

namespace Source.Frozen

open Run Source.TensorFlow Source.TensorFlow.Course

def normScope? (name : String) : Option String :=
  match (scopes name).reverse with
  | _ :: "batchnorm" :: outer :: _ => some outer
  | _ => none

def chained (name op : String) : Bool :=
  op == "Add" && (normScope? name == some "BatchNorm" || normScope? name == some "InstanceNorm")

/-- The vertices that get no layer in any graph: those of the scopes that are left out, those whose operator has
no rule or a rule that makes none, and the sums of a normalisation of another kind. -/
def silent (name op : String) : Bool :=
  (scopes name).any leftOut.contains || (rule? op).isNone ||
    ["NoOp", "CheckNumerics", "Requantize"].contains op ||
    (op == "Add" && (normScope? name).isSome && !chained name op)

def course (g : Graph Layer) (nodes : List Layer) : Course where
  graph := g
  silent := silent
  chained := chained
  passes op := op == "Identity" || op == "Switch"
  distinct := (nodes.map (·.name)).Nodup

/-! ## Steps of a rule -/

section
variable {R : Builder Layer Unit → Builder Layer Unit → Prop} {v : Vertex Layer} {k : Nat}

instance (name : String) (t : Tensor) [∀ x, Stays R (setWeight v.name name x)] :
    Stays R (store v name t) := by unfold store; infer_instance

instance [∀ m f, Stays R (changeAttr k m f : Convert Unit)] : Stays R (copyShape v k) := by
  unfold copyShape; infer_instance

instance [∀ line, Stays R (say line : Convert Unit)] : Stays R (unknown v) := by unfold unknown; infer_instance

variable [∀ d m path mark, Stays R (follow d m path mark : Convert (Option (Vertex Layer)))]

instance (i : Int) : Stays R (sourceSizes v i) := by unfold sourceSizes; infer_instance

instance (fuel : Nat) (n : Option (Vertex Layer)) : Stays R (constantFrom fuel n) := by
  induction fuel generalizing n with
  | zero => unfold constantFrom; infer_instance
  | succ fuel ih => cases n <;> (unfold constantFrom; infer_instance)

instance (n : Option (Vertex Layer)) : Stays R (constantBehind n) := by unfold constantBehind; infer_instance

instance (name : String) (path : List Int) (mark : Bool) : Stays R (constantAt name path mark) := by
  unfold constantAt; infer_instance

instance (sum : Vertex Layer) : Stays R (biasOf sum) := by unfold biasOf; infer_instance

instance (node : Vertex Layer) : Stays R (kernelOf node) := by unfold kernelOf; infer_instance

variable [∀ x name, Stays R (setWeight v.name name x)]

instance [∀ vs, Stays R (assign k vs : Convert Unit)] : Stays R (setKernel v k) := by
  unfold setKernel; infer_instance

instance [∀ m f, Stays R (changeAttr k m f : Convert Unit)] (root : Vertex Layer) : Stays R (chainEnds v k root) := by
  unfold chainEnds; infer_instance

end

section
variable {c : Course} {done : List String} {k : Nat} {v : Vertex Layer}

instance (op : String) : Stays (c.Ongoing done k v.name) (identify v k op) := by unfold identify; infer_instance

theorem identify_blank (op : String) :
    Triple (c.Blank done k) (identify v k op) fun _ => c.Making done k v.name :=
  setName_blank.bind fun _ => keeps_making

theorem makes_carry {op : String} {stop : Option Nat} {start : Nat} {f : Nat → Convert Unit}
    (hf : ∀ done k, Stays (c.Ongoing done k v.name) (f k)) : c.Makes v (carry v op stop start >>= f) :=
  makes_after (fun _ hv => newLayer_blank.bind fun _ => (identify_blank op).bind fun _ =>
    (readSources_making hv.sources start stop).bind fun _ => .pure fun _ h => h) hf

/-! ## Rules -/

theorem requantise_makes (hs : c.silent v.name v.item.op = true) : c.Makes v (requantise v) := by
  intro done hv
  have homitted {b : Builder Layer Unit} (h : c.Tidy done (headers b) b) :
      ∃ u, b.graph.vertices.find? v.name = some u ∧ c.Omitted u := by
    obtain ⟨u, hu, hname, hop⟩ := hv.find? h
    exact ⟨u, hu, .inr (by rwa [hname, hop])⟩
  refine keeps_tidy.bind fun w => (rename_tidy w.name v.name).imp (fun b hb => ⟨hb, .inr (.inl (homitted hb))⟩)
    fun _ b hb => ⟨hb, .inr ?_⟩
  obtain ⟨u, hu, ho⟩ := homitted hb
  exact ⟨u, hu, .inl ho⟩

theorem batchChain_makes (hc : c.chained v.name v.item.op = true) : c.Makes v (batchChain v) := by
  refine makes_layer (fun _ _ => identify_blank "BatchNorm") fun done k hv => ?_
  have := ongoing_close (σ := Unit) (k := k) hv hc
  have hproduct : Stays (c.Ongoing done k v.name) (productNorm v k) := by
    refine .step fun scale => .step fun _ => .step fun shift => .step fun _ => ongoing_iff.mpr ?_
    exact (parent_ahead hv hc v.name [0]).bind fun _ => addInput_making
  have hsum (first : Vertex Layer) : Stays (c.Ongoing done k v.name) (sumNorm v k first) := by
    unfold sumNorm
    infer_instance
  infer_instance

theorem instanceChain_makes (hc : c.chained v.name v.item.op = true) : c.Makes v (instanceChain v) := by
  refine makes_layer (fun _ _ => identify_blank "InstanceNorm") fun done k hv => ?_
  have := ongoing_close (σ := Unit) (k := k) hv hc
  infer_instance

theorem add_makes (g : Graph Layer) (nodes : List Layer) (hop : v.item.op = "Add") :
    (course g nodes).Makes v (add v) := by
  unfold add
  split
  · rename_i outer _ hscopes
    have hscope : normScope? v.name = some outer := by simp [normScope?, hscopes]
    split
    · rename_i h
      exact batchChain_makes (by simp [course, chained, hop, hscope, h])
    · split
      · rename_i h
        exact instanceChain_makes (by simp [course, chained, hop, hscope, h])
      · rename_i h h'
        exact makes_silent (by simp [course, silent, chained, hop, hscope, h, h']) _
  · exact makes_carry fun _ _ => inferInstance

theorem rule_makes (g : Graph Layer) (nodes : List Layer) {rule : Vertex Layer → Convert Unit}
    (h : rule? v.item.op = some rule) : (course g nodes).Makes v (rule v) := by
  unfold rule? at h
  split at h
  all_goals cases h
  all_goals
    rename_i hop
    first
    | with_reducible exact add_makes g nodes hop
    | with_reducible exact requantise_makes (by simp [course, silent, hop])
    | with_reducible exact makes_passOn (by simp [course, hop])
    | with_reducible exact makes_silent (by simp [course, silent, hop]) (pure ())
    -- the others carry the vertex over and work on its layer then
    | exact makes_carry fun _ _ => inferInstance

theorem convertNode_makes (g : Graph Layer) (nodes : List Layer) (v : Vertex Layer) :
    (course g nodes).Makes v (convertNode v) := by
  unfold convertNode
  split
  · rename_i rule h
    exact rule_makes g nodes h
  · rename_i h
    exact makes_silent (by simp [course, silent, h]) (unknown v)

end

/-! ## Whole graphs -/

variable {t : Told} {nodes : List Layer}

theorem name_note {n n' : Layer} (h : note t n = .ok n') : n'.name = n.name := by
  unfold note at h
  split at h
  on_goal 1 => by_cases hop : n.op = "Placeholder"
  on_goal 1 => simp only [if_pos hop] at h
  on_goal 2 => simp only [if_neg hop] at h
  on_goal 3 => dsimp only at h
  -- shapes are added in at most three steps, none of which touches the name
  all_goals
    split at h
    · obtain ⟨s, -, h⟩ := bind_cases h
      simp only [pure_bind] at h
      split at h
      · split at h <;> cases h <;> rfl
      · cases h
        rfl
    · simp only [pure_bind] at h
      split at h
      · split at h <;> cases h <;> rfl
      · cases h
        rfl

theorem names_noted {noted : List Layer} (h : nodes.mapM (note t) = .ok noted) :
    noted.map (·.name) = nodes.map (·.name) := map_of_mapM (fun _ _ => name_note) h

theorem convert_operands {sizes : List Value} {b b' : Builder Layer Unit}
    (hstart : start t nodes sizes = .ok b) (hrun : convert.outcome b = (.ok (), b')) {l : Layer}
    (hl : l ∈ b'.layers.toList) {x : String} (hx : x ∈ l.inputs) : (course b.graph nodes).Operand b' l x := by
  obtain ⟨t', -, hstart⟩ := bind_cases hstart
  obtain ⟨_, hgraph, hstart⟩ := bind_cases hstart
  obtain ⟨noted, hn, ⟨⟩⟩ := bind_cases hgraph
  cases hstart
  refine convertKept_operand noted (convertNode_makes (TensorFlow.graphOf noted).1 nodes) (fun v hv => ?_)
    (fun v hv => ?_) rfl (fun hd => preceded_graphOf ?_) rfl rfl hrun hl hx
  · cases hv
  · simp [course, silent, hv]
  · rw [names_noted hn]
    exact hd

end Source.Frozen

namespace Source.TensorFlow

/-- Every name that a layer reads is the name of a layer or of a vertex that gets none. Only where layers look
ahead, or where two nodes share a name, can it also be a vertex that passes its input on or that is never
reached. -/
theorem operands_accounted :
    (∀ nodes checkpoint b, Checkpoint.convert.outcome (Checkpoint.start nodes checkpoint) = (.ok (), b) →
      ∀ l ∈ b.layers.toList, ∀ x ∈ l.inputs,
        (Checkpoint.course (Checkpoint.start nodes checkpoint).graph nodes).Operand b l x) ∧
    ∀ t nodes sizes b b', Frozen.start t nodes sizes = .ok b → Frozen.convert.outcome b = (.ok (), b') →
      ∀ l ∈ b'.layers.toList, ∀ x ∈ l.inputs, (Frozen.course b.graph nodes).Operand b' l x := by
  constructor
  · intro nodes checkpoint b hrun l hl x hx
    exact Checkpoint.convert_operands hrun hl hx
  · intro t nodes sizes b b' hstart hrun l hl x hx
    exact Frozen.convert_operands hstart hrun hl hx

section
variable {σ : Type} {r : Run (Builder Layer σ) Unit} {b : Builder Layer σ} {hs : List (String × List String)}

def Leaves (r : Run (Builder Layer σ) Unit) (b : Builder Layer σ) (hs : List (String × List String)) : Prop :=
  (r.outcome b).1 = .ok () ∧ headers (r.outcome b).2 = hs

instance : Decidable (Leaves r b hs) := inferInstanceAs (Decidable (_ ∧ _))

variable {ins : List String} {name : String}

theorem Leaves.layer (h : Leaves r b hs) (hmem : (name, ins) ∈ hs) :
    ∃ b', r.outcome b = (.ok (), b') ∧ (∃ l ∈ b'.layers.toList, l.name = name ∧ l.inputs = ins) ∧
      ∀ l ∈ b'.layers.toList, l.name ∈ hs.map (·.1) := by
  obtain ⟨hrun, rfl⟩ := h
  refine ⟨_, Prod.ext hrun rfl, ?_, fun l hl => ?_⟩
  · obtain ⟨l, hl, e⟩ := List.mem_map.mp hmem
    exact ⟨l, hl, congrArg Prod.fst e, congrArg Prod.snd e⟩
  · exact List.mem_map_of_mem (List.mem_map_of_mem hl)

def ReadsUnmade (b : Builder Layer σ) (x : String) : Prop :=
  (∃ l ∈ b.layers.toList, x ∈ l.inputs) ∧ ∀ l ∈ b.layers.toList, l.name ≠ x

theorem Leaves.readsUnmade (h : Leaves r b hs) {x : String} (hmem : (name, ins) ∈ hs)
    (hx : x ∈ ins) (hname : x ∉ hs.map (·.1)) : ∃ b', r.outcome b = (.ok (), b') ∧ ReadsUnmade b' x := by
  obtain ⟨b', hrun, ⟨l, hl, -, rfl⟩, hnames⟩ := h.layer hmem
  exact ⟨b', hrun, ⟨l, hl, hx⟩, fun l' hl' e => hname (e ▸ hnames l' hl')⟩

end

def scaledInput (op : String) : List Layer :=
  [{ name := "x", op := "Placeholder", attrs := .ofList [("shape", .shape [1, 2])] },
    { name := "c", op := "Const" }, { name := "y", op := op, inputs := ["x", "c"] }]

def normalisedLate : List Layer :=
  [{ name := "var", op := "VariableV2" }, { name := "var/read", op := "Identity", inputs := ["var"] },
    { name := "eps", op := "Const", attrs := .ofList [("value", .tensor ⟨1, [], [0.5], [], []⟩)] },
    { name := "n/batchnorm/add", op := "Add", inputs := ["var/read", "eps"] },
    { name := "rsqrt", op := "Rsqrt", inputs := ["n/batchnorm/add"] },
    { name := "gamma", op := "VariableV2" }, { name := "gamma/read", op := "Identity", inputs := ["gamma"] },
    { name := "mul", op := "Mul", inputs := ["rsqrt", "gamma/read"] },
    { name := "x", op := "Placeholder", attrs := .ofList [("shape", .shape [1, 2])] },
    { name := "r", op := "Relu", inputs := ["x"] }, { name := "i", op := "Identity", inputs := ["r"] },
    { name := "mul_1", op := "Mul", inputs := ["i", "mul"] },
    { name := "mean", op := "VariableV2" }, { name := "mean/read", op := "Identity", inputs := ["mean"] },
    { name := "mul_2", op := "Mul", inputs := ["mean/read", "mul"] },
    { name := "beta", op := "VariableV2" }, { name := "beta/read", op := "Identity", inputs := ["beta"] },
    { name := "sub", op := "Sub", inputs := ["beta/read", "mul_2"] },
    { name := "n/batchnorm/add_1", op := "Add", inputs := ["mul_1", "sub"] }]

theorem leaves_scaledInput : Leaves Checkpoint.convert (Checkpoint.start (scaledInput "Mul") none)
    [("x", []), ("y", ["x", "c"])] := by
  decide +kernel

theorem operands_accounted_scaled :
    (∃ b, Checkpoint.convert.outcome (Checkpoint.start (scaledInput "Mul") none) = (.ok (), b) ∧
      ∃ l ∈ b.layers.toList, l.inputs = ["x", "c"] ∧ ∀ x ∈ l.inputs,
        (Checkpoint.course (Checkpoint.start (scaledInput "Mul") none).graph (scaledInput "Mul")).Operand b l x) ∧
    ∃ b b', Frozen.start { inputs := ["x"] } (scaledInput "Maximum") [.int 2, .int 2, .int 3] = .ok b ∧
      Frozen.convert.outcome b = (.ok (), b') ∧ ∃ l ∈ b'.layers.toList, l.inputs = ["x", "c"] ∧
        ∀ x ∈ l.inputs, (Frozen.course b.graph (scaledInput "Maximum")).Operand b' l x := by
  constructor
  · obtain ⟨b, hrun, ⟨l, hl, -, hins⟩, -⟩ := leaves_scaledInput.layer (.tail _ (List.mem_singleton_self _))
    exact ⟨b, hrun, l, hl, hins, operands_accounted.1 _ _ b hrun l hl⟩
  · have hleaves : (Frozen.start { inputs := ["x"] } (scaledInput "Maximum") [.int 2, .int 2, .int 3]).toOption.any
        (fun b => decide (Leaves Frozen.convert b [("x", []), ("y", ["x", "c"])])) := by
      decide +kernel
    cases hstart : Frozen.start { inputs := ["x"] } (scaledInput "Maximum") [.int 2, .int 2, .int 3] with
    | error e => rw [hstart] at hleaves; cases hleaves
    | ok b =>
      rw [hstart] at hleaves
      obtain ⟨b', hrun, ⟨l, hl, -, hins⟩, -⟩ :=
        (of_decide_eq_true hleaves).layer (.tail _ (List.mem_singleton_self _))
      exact ⟨b, b', rfl, hrun, l, hl, hins, operands_accounted.2 _ _ _ b b' hstart hrun l hl⟩

/-- A constant factor is read and has no layer, and so is the node that passes on the input of a normalisation. -/
theorem operands_not_all_made :
    (∃ b, Checkpoint.convert.outcome (Checkpoint.start (scaledInput "Mul") none) = (.ok (), b) ∧ ReadsUnmade b "c") ∧
    ∃ b, Checkpoint.convert.outcome (Checkpoint.start normalisedLate none) = (.ok (), b) ∧ ReadsUnmade b "i" := by
  have hlate : Leaves Checkpoint.convert (Checkpoint.start normalisedLate none)
      [("x", []), ("r", ["x"]), ("n/batchnorm/add", ["i"])] := by
    decide +kernel
  constructor
  · exact leaves_scaledInput.readsUnmade (.tail _ (List.mem_singleton_self _)) (by decide) (by decide)
  · exact hlate.readsUnmade (.tail _ (.tail _ (List.mem_singleton_self _))) (by decide)
      (by decide)

end Source.TensorFlow

end NetBridge
