import NetBridge.Proofs.MxNetTurns
import NetBridge.Proofs.MxNetLayers

/-!
# Names of the weights of a symbol

What the turn of a node adds is known from the node: the names of its layers (`newLayers`), and the names under which
it records weights (`filedNames`). Most steps change no name (`SameNames`). All weights have a layer exactly if nodes
that store arrays under a name with a low line share it with another layer.
-/

namespace NetBridge.Source

open Run List

variable {α σ β : Type}

def namesOf (b : Builder α σ) : List String := b.layers.toList.map (·.name)

structure SameNames (b b' : Builder α σ) : Prop where
  graph : b'.graph = b.graph
  loaded : b'.loaded = b.loaded
  layers : namesOf b' = namesOf b
  weights : b'.weights.keys = b.weights.keys

variable {b b' b'' : Builder α σ}

theorem SameNames.trans (h : SameNames b b') (h' : SameNames b' b'') : SameNames b b'' :=
  ⟨h'.graph.trans h.graph, h'.loaded.trans h.loaded, h'.layers.trans h.layers, h'.weights.trans h.weights⟩

section
variable {k : Nat} {name : String}

instance : Edits (SameNames (α := α) (σ := σ)) k Layer.name where
  edit b₀ b f h hf := by
    refine h.trans ⟨rfl, rfl, ?_, rfl⟩
    rw [namesOf, Array.toList_modify]
    exact map_modify k (by simpa [layerAt] using hf)
  touch _ _ := rfl

instance (line : String) : Stays SameNames (say line : Build α σ Unit) :=
  ⟨fun _ => .modify fun _ h => h.trans ⟨rfl, rfl, rfl, rfl⟩⟩

instance (f : σ → σ) : Stays SameNames (modifyOwn f : Build α σ Unit) :=
  ⟨fun _ => .modify fun _ h => h.trans ⟨rfl, rfl, rfl, rfl⟩⟩

instance (op : String) : Stays SameNames (setOp k op : Build α σ Unit) := stays_edit fun _ => rfl

instance : Stays SameNames (addInput k name : Build α σ Unit) := stays_edit fun _ => rfl

instance (m : String) (path : List Int) : Stays SameNames (parent m path : Build α σ (Vertex α)) := by
  have : Stays SameNames (parent? m path : Build α σ (Option (Vertex α))) := by
    refine ⟨fun _ b hb a b' h => hb.trans ?_⟩
    obtain ⟨-, rfl⟩ := follow_eq_ok h
    exact ⟨Graph.follow_unmarked .., rfl, rfl, rfl⟩
  unfold parent
  infer_instance

end

/-- The same graph and names of layers later on, and no new name of weights but one. -/
structure NamesWithin (n : String) (b b' : Builder α σ) : Prop where
  graph : b'.graph = b.graph
  loaded : b'.loaded = b.loaded
  layers : namesOf b' = namesOf b
  kept : ∀ m ∈ b.weights.keys, m ∈ b'.weights.keys
  new : ∀ m ∈ b'.weights.keys, m ∈ b.weights.keys ∨ m = n

variable {n : String}

theorem NamesWithin.trans (h : NamesWithin n b b') (h' : NamesWithin n b' b'') : NamesWithin n b b'' :=
  ⟨h'.graph.trans h.graph, h'.loaded.trans h.loaded, h'.layers.trans h.layers,
    fun m hm => h'.kept m (h.kept m hm), fun m hm => (h'.new m hm).elim (h.new m) .inr⟩

instance (priority := low) (x : Build α σ β) [hx : Stays SameNames x] : Stays (NamesWithin n) x := by
  refine ⟨fun _ b hb a b' h => hb.trans ?_⟩
  have hsame := hx.keeps b b ⟨rfl, rfl, rfl, rfl⟩ a b' h
  exact ⟨hsame.graph, hsame.loaded, hsame.layers, fun m hm => hsame.weights ▸ hm,
    fun m hm => .inl (hsame.weights ▸ hm)⟩

instance (key : String) (v : Value) : Stays (NamesWithin n) (setWeight n key v : Build α σ Unit) := by
  refine ⟨fun _ => .modify fun b hb => hb.trans ⟨rfl, rfl, rfl, fun m hm => ?_, fun m hm => ?_⟩⟩
  · exact Table.mem_keys_insert.mpr (Or.inr hm)
  · exact (Table.mem_keys_insert.mp hm).symm

/-! ## Names on record -/

structure Filed (g : Graph α) (out : String → String) (names filed : List String) (b : Builder α σ) : Prop where
  graph : g.Renamed out b.graph
  loaded : b.loaded = true
  layers : namesOf b = names
  weights : ∀ n, n ∈ b.weights.keys ↔ n ∈ filed

variable {out : String → String} {names filed : List String}

section
variable {g : Graph α} {q : String}

variable {x : Build α σ β}

theorem keeps_filed [hx : Stays SameNames x] : Keeps (Filed g out names filed) x := by
  intro b hb a b' h
  have hsame := hx.keeps b b ⟨rfl, rfl, rfl, rfl⟩ a b' h
  exact ⟨hsame.graph ▸ hb.graph, hsame.loaded.trans hb.loaded, hsame.layers.trans hb.layers,
    fun n => hsame.weights ▸ hb.weights n⟩

theorem newLayer_filed {f : Nat → Build α σ β} {Q : β → Builder α σ → Prop}
    (hf : Triple (Filed g out (names ++ [""]) filed) (f names.length) Q) :
    Triple (Filed g out names filed) (newLayer >>= f) Q := by
  intro b hb a b' h
  obtain ⟨k, _, ⟨⟩, h⟩ := step_cases h
  have hsize : b.layers.size = names.length := by
    rw [← hb.layers]
    simp [namesOf]
  rw [hsize] at h
  refine hf { b with layers := b.layers.push {} } ⟨hb.graph, hb.loaded, ?_, hb.weights⟩ a b' h
  rw [← hb.layers]
  simp [namesOf]

theorem setName_filed : Triple (Filed g out (names ++ [n]) filed) (setName names.length q : Build α σ Unit)
    fun _ => Filed g out (names ++ [q]) filed := by
  refine .modify fun b hb => ⟨hb.graph, hb.loaded, ?_, hb.weights⟩
  obtain ⟨ls, ls', hls, rfl, hl'⟩ := map_eq_append_iff.mp hb.layers
  obtain ⟨l, rfl, rfl⟩ := map_eq_singleton_iff.mp hl'
  rw [namesOf, Array.toList_modify, hls, length_map, modify_last]
  simp

theorem setWeight_filed {key : String} {v : Value} : Triple (Filed g out names filed)
    (setWeight n key v : Build α σ Unit) fun _ => Filed g out names (n :: filed) := by
  refine .modify fun b hb => ⟨hb.graph, hb.loaded, hb.layers, fun m => ?_⟩
  rw [Table.mem_keys_insert, hb.weights, mem_cons]

theorem keeps_filed_within [hx : Stays (NamesWithin n) x] : Keeps (Filed g out names (n :: filed)) x := by
  intro b hb a b' h
  have hwithin := hx.keeps b b ⟨rfl, rfl, rfl, fun _ h => h, fun _ h => .inl h⟩ a b' h
  refine ⟨hwithin.graph ▸ hb.graph, hwithin.loaded.trans hb.loaded, hwithin.layers.trans hb.layers, fun m => ?_⟩
  constructor
  · intro hm
    rcases hwithin.new m hm with hm | rfl
    · exact (hb.weights m).mp hm
    · exact .head _
  · intro hm
    exact hwithin.kept m ((hb.weights m).mpr hm)

theorem rename_filed : Triple (Filed g out names filed) (rename n q : Build α σ Unit)
    fun _ => Filed g (Graph.renameAt out n q) names filed :=
  .modify fun _ hb => ⟨hb.graph.modify n q, hb.loaded, hb.layers, hb.weights⟩

end

namespace MxNet

-- rules with many steps
set_option synthInstance.maxSize 20000

/-! ## Turns of nodes -/

def hasSlopes (v : Vertex Node) : Bool :=
  match setting v "act_type" with
  | .ok kind => layoutIn kind ["prelu"]
  | .error _ => false

def storesArrays (v : Vertex Node) : Bool :=
  match v.item.op with
  | some "FullyConnected" | some "Convolution" | some "BatchNorm" => true
  | some "LeakyReLU" => hasSlopes v
  | _ => false

def newLayers (v : Vertex Node) : List String :=
  if v.item.op = some "_copy" then [] else (numberName? v).toList ++ [stripped v.name]

def filedNames (v : Vertex Node) : List String :=
  (numberName? v).toList ++ if storesArrays v then [v.name] else []

def Stores (new : List String) (x : Convert β) : Prop :=
  ∀ g out names filed, Triple (Filed g out names filed) x fun _ => Filed g out names (new ++ filed)

def Files (v : Vertex Node) (layers new : List String) (x : Convert Unit) : Prop :=
  ∀ g out names filed, out v.name = v.name → Triple (Filed g out names filed) x
    fun _ b => ∃ q, Filed g (Graph.renameAt out v.name q) (names ++ layers) (new ++ filed) b

variable {g : Graph Node} {v : Vertex Node} {f : β → Convert Unit}

section
variable {layers new : List String}

variable {x : Convert β} {γ : Type} {key : String}

theorem Stores.none [Stays SameNames x] : Stores [] x := fun _ _ _ _ => keeps_filed

theorem Stores.after {x : Convert γ} {f : γ → Convert β} [Stays SameNames x] (hf : ∀ a, Stores new (f a)) :
    Stores new (x >>= f) := fun g out names filed => keeps_filed.bind fun a => hf a g out names filed

theorem Stores.before {x : Convert γ} {f : γ → Convert β} (hx : Stores [n] x)
    [∀ a, Stays (NamesWithin n) (f a)] : Stores [n] (x >>= f) :=
  fun g out names filed => (hx g out names filed).bind fun _ => keeps_filed_within

theorem stores_setWeight {x : Value} : Stores [n] (setWeight n key x : Convert Unit) :=
  fun _ _ _ _ => setWeight_filed

theorem stores_storeWeight {suffix : String} : Stores [v.name] (storeWeight v key suffix) :=
  .after fun _ => stores_setWeight

theorem Stores.loaded {y : Convert β} (hx : Stores new x) : Stores new (do if ← hasWeights then x else y) := by
  intro g out names filed
  have hasks : Gets (Filed g out names filed) (hasWeights : Convert Bool)
      fun c => c = true := by
    intro b hb c b' h
    cases h
    exact ⟨hb, hb.loaded⟩
  refine hasks.bind_of fun c hc => ?_
  rw [if_pos hc]
  exact hx g out names filed

theorem Files.after [Stays SameNames x] (hf : ∀ a, Files v layers new (f a)) : Files v layers new (x >>= f) :=
  fun g out names filed hv => keeps_filed.bind fun a => hf a g out names filed hv

theorem Files.lift {e : Except Fault β} (hf : ∀ a, e = .ok a → Files v layers new (f a)) :
    Files v layers new ((liftM e : Convert β) >>= f) := by
  intro g out names filed hv
  exact .bind_of (.lift fun a ha _ h => ⟨h, ha⟩) fun a ha => hf a ha g out names filed hv

theorem Files.throw (e : Fault) : Files v layers new (throw e : Convert Unit) := fun _ _ _ _ _ => .throw

theorem identify_filed (hv : out v.name = v.name)
    (op : String) : Triple (Filed g out (names ++ [n]) filed) (identify v names.length op)
      fun _ b => ∃ q, Filed g (Graph.renameAt out v.name q) (names ++ [stripped v.name]) filed b := by
  unfold identify
  extract_lets rest
  have hrest (out' : String → String) : Triple (Filed g out' (names ++ [n]) filed) (rest ()) fun _ =>
      Filed g out' (names ++ [out' v.name]) filed := by
    refine .bind_of (outputNameOf_spec (fun _ hb => hb.graph) v.name) fun new hnew => ?_
    rw [hnew]
    exact setName_filed.bind fun _ => keeps_filed
  split
  · rename_i hlow
    refine rename_filed.bind fun _ => (hrest _).post fun _ b hb => ⟨Text.drop 1 v.name, ?_⟩
    rw [Graph.renameAt_self] at hb
    rw [stripped, ownName?, if_pos hlow]
    exact hb
  · rename_i hlow
    refine (hrest out).post fun _ b hb => ⟨out v.name, ?_⟩
    rw [hv] at hb
    rw [Graph.renameAt_same, stripped, ownName?, if_neg hlow]
    exact hb

theorem draft_filed (hv : out v.name = v.name) (op : String) {f : Nat → Convert β} (hf : ∀ k, Stores new (f k)) :
    Triple (Filed g out names filed) (newLayer >>= fun k => identify v k op >>= fun _ => f k)
      fun _ b => ∃ q, Filed g (Graph.renameAt out v.name q) (names ++ [stripped v.name]) (new ++ filed) b := by
  refine newLayer_filed (.bind (identify_filed hv op) fun _ => .exists fun q => ?_)
  exact (hf _ g _ _ filed).post fun _ _ h => ⟨q, h⟩

theorem Files.draft (op : String) {f : Nat → Convert Unit} (hf : ∀ k, Stores new (f k)) :
    Files v [stripped v.name] new (newLayer >>= fun k => identify v k op >>= fun _ => f k) :=
  fun _ _ _ _ hv => draft_filed hv op hf

theorem Files.carry (op : String) {f : Nat → Convert Unit} (hf : ∀ k, Stores new (f k)) :
    Files v [stripped v.name] new (carry v op >>= f) := by
  intro g out names filed hv
  refine .bind (draft_filed hv op fun k => .none) fun k => .exists fun q => ?_
  exact (hf k g _ _ filed).post fun _ _ h => ⟨q, h⟩

/-! ### Rules -/

theorem dense_files : Files v [stripped v.name] [v.name] (dense v) := by
  refine .carry _ fun k => .after fun units => .after fun _ => .after fun flat => .after fun _ => ?_
  refine .loaded (.after fun t => .after fun t' => .after fun s => ?_)
  dsimp only
  split
  · exact .after fun _ => .before stores_setWeight
  · exact .after fun _ => .before stores_setWeight

theorem storeKernel_stores (layout : Value) (dim : Nat) (bias : Bool) :
    Stores [v.name] (storeKernel v layout dim bias) := by
  refine .loaded (.after fun t => ?_)
  dsimp only
  split
  · exact .after fun _ => .before stores_setWeight
  · exact .after fun _ => .before stores_setWeight

theorem convolution_files : Files v [stripped v.name] [v.name] (convolution v) := by
  intro g out names filed hv
  refine newLayer_filed (keeps_filed.bind fun _ => keeps_filed.bind fun _ => keeps_filed.bind fun s => ?_)
  iterate 7 refine keeps_filed.bind fun _ => ?_
  refine (identify_filed hv _).bind fun _ => .exists fun q => ?_
  iterate 8 refine keeps_filed.bind fun _ => ?_
  exact (storeKernel_stores _ _ _ g _ _ filed).post fun _ _ h => ⟨q, h⟩

theorem batchNorm_files : Files v [stripped v.name] [v.name] (batchNorm v) := by
  refine .carry _ fun k => .after fun _ => .after fun fixed => .after fun _ => .after fun _ => .after fun epsilon => ?_
  refine .after fun _ => .after fun momentum => .after fun _ => .loaded ?_
  split
  · exact .before stores_storeWeight
  · exact .before stores_storeWeight

theorem carried_files (op : String) : Files v [stripped v.name] [] (do let _ ← carry v op) := .carry _ fun _ => .none

theorem reshape_files : Files v [stripped v.name] [] (reshape v) := by
  refine .carry _ fun k => .after fun s => ?_
  split
  · exact .none
  · refine .after fun ns => ?_
    split <;> exact .none

theorem activation_files : Files v [stripped v.name] [] (activation v) := by
  refine .after fun s => ?_
  split <;> exact .after fun op => carried_files op

theorem pooling_files : Files v [stripped v.name] [] (pooling v) := by
  refine .draft _ fun k => .after fun _ => .after fun kind => ?_
  split <;> exact .none

theorem leakyRelu_files : Files v [stripped v.name] (if hasSlopes v then [v.name] else []) (leakyRelu v) := by
  refine .lift fun kind hkind => ?_
  simp only [hasSlopes, hkind]
  split
  · split
    · exact .after fun _ => .draft _ fun _ => .before stores_storeWeight
    · exact .draft _ fun _ => .before stores_storeWeight
  · split
    · exact .after fun _ => .draft _ fun _ => .none
    · exact .draft _ fun _ => .none

theorem copy_files : Files v [] [] (copy v) := by
  intro g out names filed hv
  refine keeps_filed.bind fun w => rename_filed.post fun _ b hb => ⟨w.outputName, ?_⟩
  simpa using hb

theorem withNumber_files (op : String) :
    Files v [v.name ++ "_second", stripped v.name] [v.name ++ "_second"] (withNumber op v) := by
  refine .after fun value => ?_
  intro g out names filed hv
  refine newLayer_filed (.bind_of (outputNameOf_spec (fun _ hb => hb.graph) v.name) fun name hname => ?_)
  rw [hname, hv]
  refine setName_filed.bind fun _ => keeps_filed.bind fun _ => keeps_filed.bind fun t =>
    setWeight_filed.bind fun _ => ?_
  refine .bind (draft_filed hv op fun k => .none) fun k => .exists fun q => ?_
  refine keeps_filed.post fun _ _ h => ⟨q, ?_⟩
  simpa using h

theorem unknown_files (op : String) : Files v [stripped v.name] [] (unknown v op) := by
  refine .after fun _ => ?_
  split
  · exact .after fun _ => carried_files _
  · exact .throw _

theorem rule_files {op : String} {rule : Vertex Node → Convert Unit} (h : rule? op = some rule)
    (hop : v.item.op = some op) : Files v (newLayers v) (filedNames v) (rule v) := by
  unfold rule? at h
  split at h
  all_goals cases h
  all_goals simp only [newLayers, filedNames, numberName?, storesArrays, hop, Option.some.injEq, String.reduceEq,
    imp_self, or_self, or_true, true_or, reduceIte, Bool.false_eq_true, Option.toList, List.nil_append,
    List.cons_append]
  all_goals first
    | with_reducible exact dense_files
    | with_reducible exact convolution_files
    | with_reducible exact activation_files
    | with_reducible exact batchNorm_files
    | with_reducible exact pooling_files
    | with_reducible exact leakyRelu_files
    | with_reducible exact reshape_files
    | with_reducible exact copy_files
    | with_reducible exact withNumber_files _
    | (dsimp only [softmaxOutput, deconvolution, embedding]; with_reducible exact .draft _ fun _ => .none)
    | with_reducible exact .throw _
    -- the others carry the vertex over and store nothing
    | exact .carry _ fun _ => .none

theorem convertNode_files : Files v (newLayers v) (filedNames v) (convertNode v) := by
  refine .lift fun op hop => ?_
  rw [orFault_eq_ok] at hop
  split
  · rename_i h
    exact rule_files h hop
  · rename_i h
    have hne {op' : String} (hop' : (rule? op').isSome = true) : some op ≠ some op' := by
      intro e
      cases e
      rw [h] at hop'
      cases hop'
    have hlayers : newLayers v = [stripped v.name] := by
      simp only [newLayers, numberName?, hop]
      rw [if_neg (hne rfl), if_neg (not_or.mpr ⟨hne rfl, hne rfl⟩)]
      rfl
    have hstores : storesArrays v = false := by
      unfold storesArrays
      rw [hop]
      split
      · exact absurd ‹_› (hne rfl)
      · exact absurd ‹_› (hne rfl)
      · exact absurd ‹_› (hne rfl)
      · exact absurd ‹_› (hne rfl)
      · rfl
    have hfiled : filedNames v = [] := by
      simp only [filedNames, numberName?, hop, hstores]
      rw [if_neg (not_or.mpr ⟨hne rfl, hne rfl⟩)]
      rfl
    rw [hlayers, hfiled]
    exact unknown_files op

end

/-! ## Whole symbols -/

def turns (g : Graph Node) (ns : List String) : List (Vertex Node) := ns.filterMap g.vertices.find?

def Reached (g : Graph Node) (done : List String) (b : Builder Node State) : Prop :=
  ∃ out filed, Filed g out ((turns g done).flatMap newLayers) filed b ∧
    (∀ n, n ∈ filed ↔ n ∈ (turns g done).flatMap filedNames) ∧ ∀ m, m ∉ done → out m = m

theorem turns_concat (hv : g.vertices.find? n = some v)
    (done : List String) : turns g (done ++ [n]) = turns g done ++ [v] := by
  simp [turns, hv]

theorem reached_step {done : List String} (hg : g.Labelled) (hn : n ∉ done) :
    Triple (Reached g done) (do convertNode (← vertex n)) fun _ => Reached g (done ++ [n]) := by
  rintro b ⟨out, filed, hb, hfiled, hfresh⟩ _ b' h
  obtain ⟨v, hv, h⟩ := vertex_bind_eq_ok h
  obtain ⟨u, hu, rfl⟩ := hb.graph.of_find? hv
  obtain rfl : u.name = n := (hg.find? hu).1
  obtain ⟨q, hq⟩ :=
    convertNode_files (v := { u with outputName := out u.name }) g out _ filed (hfresh u.name hn) b hb _ b' h
  have hnames : (turns g (done ++ [u.name])).flatMap newLayers = (turns g done).flatMap newLayers ++ newLayers u := by
    rw [turns_concat hu, flatMap_append, flatMap_singleton]
  refine ⟨_, _, hnames ▸ hq, fun m => ?_, Graph.fresh_renameAt hfresh u.name q⟩
  rw [turns_concat hu, flatMap_append, flatMap_singleton, mem_append, mem_append, hfiled]
  exact or_comm

theorem convert_names (hg : g.Labelled) {b₀ b : Builder Node State} (hgraph : b₀.graph = g.finish)
    (hloaded : b₀.loaded = true) (hlayers : b₀.layers = #[]) (hweights : b₀.weights = ∅)
    (h : convert.outcome b₀ = (.ok (), b)) : namesOf b = (turns g g.finish.order).flatMap newLayers ∧
      ∀ n, n ∈ b.weights.keys ↔ n ∈ (turns g g.finish.order).flatMap filedNames := by
  have hstart : Reached g [] b₀ := by
    refine ⟨id, [], ⟨?_, hloaded, ?_, fun n => ?_⟩, fun _ => .rfl, fun _ _ => rfl⟩
    · rw [hgraph]
      exact Graph.renamed_id fun m v hv => (hg.find? hv).2
    · rw [namesOf, hlayers]
      rfl
    · rw [hweights]
      exact .rfl
  have hloop : Triple (Reached g []) (g.finish.order.forM fun n => do convertNode (← vertex n))
      fun _ b => Reached g g.finish.order b := by
    refine .forM fun done n todo e => reached_step hg ?_
    exact not_mem_done hg.nodup_order e
  obtain ⟨c, _, ⟨⟩, h⟩ := step_cases h
  rw [hgraph] at h
  obtain ⟨out, filed, hb, hfiled, -⟩ := hloop b₀ hstart _ b h
  exact ⟨hb.layers, fun n => (hb.weights n).trans (hfiled n)⟩

def nodesOf (b₀ : Builder Node State) : List (Vertex Node) := turns b₀.graph b₀.graph.order

theorem number_mem_newLayers (h : n ∈ (numberName? v).toList) : n ∈ newLayers v := by
  have hcopy : v.item.op ≠ some "_copy" := by
    intro hop
    simp [numberName?, hop] at h
  rw [newLayers, if_neg hcopy]
  exact mem_append_left _ h

theorem stripped_mem_newLayers (h : storesArrays v = true) : stripped v.name ∈ newLayers v := by
  have hcopy : v.item.op ≠ some "_copy" := by
    intro hop
    simp [storesArrays, hop] at h
  rw [newLayers, if_neg hcopy]
  exact mem_append_right _ (mem_singleton_self _)

/-- Every name with weights is that of a layer exactly if every node whose arrays stand under a name with a low line at
its start shares that name with a layer of some node. All other arrays stand under the name of their layer. -/
theorem weights_named_iff {nodes : List Value} {sizes : List Int} {arrays : Table Tensor} {shapes : Table (List Value)}
    {b₀ b : Builder Node State} (hstart : start nodes sizes (some arrays) shapes = .ok b₀)
    (h : convert.outcome b₀ = (.ok (), b)) :
    (∀ n, (∃ l ∈ b.layers, l.name = n) ↔ ∃ v ∈ nodesOf b₀, n ∈ newLayers v) ∧
    (∀ n, n ∈ b.weights.keys ↔ ∃ v ∈ nodesOf b₀, n ∈ filedNames v) ∧
    ((∀ n ∈ b.weights.keys, ∃ l ∈ b.layers, l.name = n) ↔
      ∀ v ∈ nodesOf b₀, storesArrays v = true → Text.startsWith v.name "_" = true →
        ∃ w ∈ nodesOf b₀, v.name ∈ newLayers w) := by
  obtain ⟨p, hp, hstart⟩ := bind_cases hstart
  obtain ⟨g, hg, hfinish⟩ := labelled_graphOf hp
  have hgraph : b₀.graph = g.finish := by cases hstart; exact hfinish
  have hnodes : nodesOf b₀ = turns g g.finish.order := by rw [nodesOf, hgraph]; rfl
  obtain ⟨hnames, hfiled⟩ := convert_names hg hgraph (by cases hstart; rfl) (by cases hstart; rfl)
    (by cases hstart; rfl) h
  have hlayer (n : String) : (∃ l ∈ b.layers, l.name = n) ↔ ∃ v ∈ nodesOf b₀, n ∈ newLayers v := by
    rw [hnodes, ← mem_flatMap, ← hnames]
    simp [namesOf]
  have hweight (n : String) : n ∈ b.weights.keys ↔ ∃ v ∈ nodesOf b₀, n ∈ filedNames v := by
    rw [hnodes, ← mem_flatMap]
    exact hfiled n
  refine ⟨hlayer, hweight, fun hall v hv hstores _ => ?_, fun hall n hn => ?_⟩
  · refine (hlayer v.name).mp (hall v.name ((hweight v.name).mpr ⟨v, hv, ?_⟩))
    rw [filedNames, if_pos hstores]
    exact mem_append_right _ (mem_singleton_self _)
  · obtain ⟨v, hv, hn⟩ := (hweight n).mp hn
    refine (hlayer n).mpr ?_
    rcases mem_append.mp hn with hn | hn
    · exact ⟨v, hv, number_mem_newLayers hn⟩
    · split at hn
      · rename_i hstores
        rw [mem_singleton.mp hn]
        by_cases hlow : Text.startsWith v.name "_" = true
        · exact hall v hv hstores hlow
        · have hsame : stripped v.name = v.name := by rw [stripped, ownName?, if_neg hlow]; rfl
          exact ⟨v, hv, hsame ▸ stripped_mem_newLayers hstores⟩
      · cases hn

def scaledNorm (name : String) : List Value :=
  [.record [("op", .text "null"), ("name", .text "data"), ("inputs", .list [])],
   .record [("op", .text "BatchNorm"), ("name", .text name), ("attr", .record [("fix_gamma", .text "False")]),
    ("inputs", .list [.list [.int 0, .int 0, .int 0]])],
   .record [("op", .text "_mul_scalar"), ("name", .text "m"), ("attr", .record [("scalar", .text "2")]),
    ("inputs", .list [.list [.int 1, .int 0, .int 0]])]]

def scaledStart (name : String) : Builder Node State :=
  resultD (start (scaledNorm name) [2]
    (some (.ofList (["_gamma", "_beta", "_moving_mean", "_moving_var"].map fun s => (name ++ s, .ofSingles [1, 2]))))
    (.ofList [(name, [.list [.int 1, .int 2]])])) { own := {} }

theorem weights_named_iff_scaled : ∃ b, convert.outcome (scaledStart "b") = (.ok (), b) ∧
    "m_second" ∈ b.weights.keys ∧ ∀ n ∈ b.weights.keys, ∃ l ∈ b.layers, l.name = n := by
  have h : convert.outcome (scaledStart "b") = (.ok (), _) := outcome_of_isSome (by decide +kernel)
  have hiff := (weights_named_iff (eq_resultD (by decide +kernel)) h).2.2
  refine ⟨_, h, by decide +kernel, hiff.mpr fun v hv _ hlow => ?_⟩
  have hnone : (nodesOf (scaledStart "b")).all (fun v => !Text.startsWith v.name "_") = true := by decide +kernel
  have := all_eq_true.mp hnone v hv
  rw [hlow] at this
  cases this

theorem weights_without_layer : ∃ b, convert.outcome (scaledStart "_b") = (.ok (), b) ∧ "_b" ∈ b.weights.keys ∧
    namesOf b = ["data", "b", "m_second", "m"] := by
  have h : convert.outcome (scaledStart "_b") = (.ok (), _) := outcome_of_isSome (by decide +kernel)
  exact ⟨_, h, by decide +kernel, by decide +kernel⟩

end MxNet

end NetBridge.Source
