import NetBridge.Proofs.MxNetLayers
import NetBridge.Source.Keras

/-!
# The order of converted layers

A Keras layer object becomes a layer of its name, with its activation or flattening behind it. Symbols and models
become networks in which a layer reads only layers that stand before it.
-/

namespace NetBridge

namespace Source.Keras

open Run

/-! ## The graph of a model -/

variable {p p' : Graph Node × List String} {m : Model}

variable {seen : List String}

theorem grown_wire {name source : String} (h : wire m name p source = .ok p') (hg : p.1.Grown seen)
    (hn : name ∈ seen) : p'.1.Grown seen := by
  unfold wire at h
  split at h
  · cases h
    exact hg.connect source hn
  · rename_i hhas
    obtain ⟨n, -, ⟨⟩⟩ := bind_cases h
    -- a source that is not there yet has not had its turn
    have hsource : source ∉ seen := fun hs => hhas (Graph.has_iff.mpr (hg.seen_keys source hs))
    exact (hg.add hsource n).connect source hn

theorem grown_nodes {nodes : List Node}
    (h : nodes.foldlM (fun g n => n.inbound.flatten.foldlM (wire m n.name) (g.1.add n.name n, g.2)) p = .ok p')
    (hg : p.1.Grown seen) (hnodup : (nodes.map (·.name)).Nodup)
    (hnew : ∀ n ∈ nodes.map (·.name), n ∉ seen) : ∃ seen', p'.1.Grown seen' := by
  induction nodes generalizing p seen with
  | nil =>
    cases h
    exact ⟨seen, hg⟩
  | cons n nodes ih =>
    obtain ⟨hfirst, hnodup⟩ := List.nodup_cons.mp hnodup
    have hseen : n.name ∉ seen := hnew n.name (.head _)
    have hadd : (p.1.add n.name n).Grown (n.name :: seen) :=
      (hg.add hseen n).see (Graph.mem_keys_add.mpr (.inl rfl))
    obtain ⟨q, hw, h⟩ := bind_cases h
    refine ih h (foldlM_keeps (fun _ _ _ hw hp => grown_wire hw hp (.head _)) hw hadd) hnodup fun k hk => ?_
    rw [List.mem_cons, not_or]
    refine ⟨fun e => hfirst ?_, hnew k (.tail _ hk)⟩
    rwa [e] at hk

theorem graphOf_spec (h : graphOf m = .ok p)
    (hnodup : (m.nodes.map (·.name)).Nodup) : p.1.order.Nodup ∧ p.1.Preceded p.1.order ∧
      ∀ k v, p.1.vertices.find? k = some v → v.name = k ∧ v.outputName = k := by
  unfold graphOf at h
  split at h
  · cases h
  · obtain ⟨q, hp, ⟨⟩⟩ := bind_cases h
    have hvisible : ((m.nodes.filter fun n => !n.hidden).map (·.name)).Nodup :=
      hnodup.sublist (List.filter_sublist.map _)
    obtain ⟨seen, hg⟩ := grown_nodes hp .empty hvisible fun n _ => List.not_mem_nil
    exact ⟨hg.nodup_order, hg.preceded_order, fun m v hv => hg.find? hv⟩

/-! ## Steps of a rule -/

section
variable {g : Graph Node} {out : String → String} {known : List String} {v : Vertex Node} {k : Nat}
  {name : String}

instance (v : Vertex Node) (k : Nat) : Quiet (setShape v k) := by
  unfold setShape
  infer_instance

instance (v : Vertex Node) (k : Nat) (kernel strides : Value) : Quiet (setPads v k kernel strides) := by
  refine .step fun s => .step fun shape => ?_
  refine .step fun padding => ?_
  split <;> infer_instance

instance (v : Vertex Node) : Quiet (storeKernel v) := by
  unfold storeKernel
  infer_instance

instance (v : Vertex Node) : Quiet (storeFilters v) := by
  unfold storeFilters
  infer_instance

theorem identify_spec (op : String) : Triple (Drafts g out known k name) (identify v k op)
    fun _ => Drafts g out known k v.name :=
  (setName_spec v.name).bind fun _ => Quiet.drafts

theorem carry_spec (hv : Ready g out known v) (op : String) : Triple (Holds g out known) (carry v op)
    fun k => Drafts g out known k v.name := by
  refine newLayer_spec.bind fun k => (identify_spec op).bind fun _ => ?_
  refine (readSources_spec (fun p hp => (hv.sources p hp).2) 0 none).bind fun _ => ?_
  exact .pure fun b hb => hb

theorem splitActivation_spec (hv : Ready g out known v) :
    Triple (Drafts g out known k v.name) (splitActivation v)
      fun _ b => ∃ q, Holds g (Graph.renameAt out v.name q) (q :: known) b := by
  suffices h : Triple (Holds g out (v.name :: known)) (splitActivation v)
      fun _ b => ∃ q, Holds g (Graph.renameAt out v.name q) (q :: known) b from
    h.pre fun _ hb => hb.finish
  refine Quiet.holds.bind fun f => ?_
  split
  · exact .pure fun b hb => hv.finish hb
  · exact .pure fun b hb => hv.finish hb
  · refine newLayer_spec.bind fun k => ?_
    refine .bind_of (outputNameOf_spec (fun _ hb => hb.graph) v.name) fun name hname => ?_
    rw [hv.own] at hname
    subst hname
    refine (setName_spec _).bind fun _ => quietly fun op => quietly fun _ => ?_
    refine (addInput_spec (.head _)).bind fun _ => quietly fun _ => ?_
    split
    · exact .bind (Q := fun _ _ => False) .throw fun _ _ h => h.elim
    · exact (rename_draft v.name _).post fun _ b hb =>
        ⟨_, hb.finish.forget⟩

end

/-! ## Rules -/

section
variable {g : Graph Node} {v : Vertex Node}

theorem converts_carry (op : String) {f : Nat → Convert Unit} (hf : ∀ k, Quiet (f k)) :
    Converts g v (carry v op >>= f) := by
  intro out known hv
  refine (carry_spec hv op).bind fun k => ?_
  exact (hf k).drafts.post fun _ b hb => hv.finish hb.finish

theorem pooling_converts (dim : Nat) (method : String) : Converts g v (pooling dim method v) :=
  converts_carry _ fun _ => inferInstance

theorem unknown_converts : Converts g v (unknown v) := .after fun _ => converts_carry _ fun _ => inferInstance

theorem reshape_converts : Converts g v (reshape v) := by
  refine converts_carry _ fun k => .step fun _ => .step fun s => ?_
  split <;> infer_instance

theorem batchNorm_converts : Converts g v (batchNorm v) := by
  refine converts_carry _ fun k => ?_
  iterate 9 refine .step fun _ => ?_
  split
  · refine .step fun scale => .step fun bias => ?_
    split <;> infer_instance
  · infer_instance

theorem activation_converts : Converts g v (activation v) := by
  intro out known hv
  refine newLayer_spec.bind fun k => quietly fun f => ?_
  split
  · refine quietly fun op => (identify_spec op).bind fun _ => ?_
    refine (readSources_spec (fun p hp => (hv.sources p hp).2) 0 none).post fun _ b hb => ?_
    exact hv.finish hb.finish
  · exact .bind (Q := fun _ _ => False) .throw fun _ _ h => h.elim

theorem lstm_converts : Converts g v (lstm v) := by
  intro out known hv
  refine (carry_spec hv _).bind fun k => ?_
  iterate 8 refine quietly fun _ => ?_
  exact splitActivation_spec hv

theorem gru_converts : Converts g v (gru v) := by
  intro out known hv
  refine (carry_spec hv _).bind fun k => quietly fun units => quietly fun _ => ?_
  refine (splitActivation_spec hv).bind fun _ => .exists fun q => ?_
  exact Quiet.holds.post fun _ b hb => ⟨q, hb⟩

theorem dense_converts : Converts g v (dense v) := by
  intro out known hv
  refine (carry_spec hv _).bind fun k => ?_
  iterate 5 refine quietly fun _ => ?_
  split
  · refine quietly fun t => quietly fun _ => quietly fun a => ?_
    split
    · exact quietly fun t' => quietly fun _ => splitActivation_spec hv
    · exact splitActivation_spec hv
  · exact splitActivation_spec hv

theorem wholePooling_converts (dim : Nat) (method : String) : Converts g v (wholePooling dim method v) := by
  intro out known hv
  refine (carry_spec hv _).bind fun k => quietly fun _ => ?_
  -- the layer of the pooling is finished, and the flattening reads it
  refine (newLayer_spec.pre fun _ hb => hb.finish).bind fun f => (setName_spec _).bind fun _ => quietly fun _ => ?_
  refine (addInput_spec (.head _)).bind fun _ => quietly fun _ => ?_
  exact (rename_draft v.name _).post fun _ b hb => ⟨_, hb.finish.forget⟩

theorem spaceToDepth_converts : Converts g v (spaceToDepth v) := by
  intro out known hv
  refine newLayer_spec.bind fun k => (identify_spec _).bind fun _ => quietly fun s => ?_
  refine (setName_spec _).bind fun _ => ?_
  refine (readSources_spec (fun p hp => (hv.sources p hp).2) 0 none).bind fun _ => ?_
  refine quietly fun _ => quietly fun _ => ?_
  exact (rename_draft v.name _).post fun _ b hb => ⟨_, hb.finish⟩

theorem beginConvolution_spec {out : String → String} {known : List String} {k : Nat} {name : String} :
    Triple (Drafts g out known k name) (beginConvolution v k) fun _ => Drafts g out known k v.name := by
  unfold beginConvolution
  split
  · exact (identify_spec _).bind fun _ => Quiet.drafts
  · exact quietly fun op => (identify_spec op).bind fun _ => Quiet.drafts

theorem convolution_converts (dim : Nat) : Converts g v (convolution dim v) := by
  intro out known hv
  refine newLayer_spec.bind fun k => ?_
  refine (readSources_spec (fun p hp => (hv.sources p hp).2) 0 none).bind fun _ => ?_
  refine beginConvolution_spec.bind fun _ => quietly fun kernel => quietly fun strides => quietly fun dilation => ?_
  refine quietly fun _ => quietly fun input => quietly fun s => quietly fun channels => quietly fun filters => ?_
  refine quietly fun sizes => quietly fun bias => quietly fun framed => quietly fun dilations => quietly fun _ => ?_
  exact splitActivation_spec hv

theorem rule_converts {kind : String} {r : Vertex Node → Convert Unit} (h : rule? kind = some r) :
    Converts g v (r v) := by
  unfold rule? at h
  split at h
  all_goals cases h
  -- the last case is for rules that carry the vertex over and only set attributes then
  all_goals first
    | with_reducible exact unknown_converts
    | with_reducible exact activation_converts
    | with_reducible exact convolution_converts _
    | with_reducible exact wholePooling_converts _ _
    | with_reducible exact pooling_converts _ _
    | with_reducible exact dense_converts
    | with_reducible exact lstm_converts
    | with_reducible exact gru_converts
    | with_reducible exact reshape_converts
    | with_reducible exact batchNorm_converts
    | with_reducible exact spaceToDepth_converts
    | exact converts_carry _ fun _ => inferInstance

theorem convertNode_converts : Converts g v (convertNode v) := by
  unfold convertNode
  split
  · unfold function
    split
    · rename_i r hr
      exact .after fun _ => rule_converts hr
    · exact .throw _
  · split
    · rename_i r hr
      exact rule_converts hr
    · exact .after fun _ => unknown_converts

end

theorem convert_spec {loaded : Bool} {b b' : Builder Node State}
    (hnodup : (m.nodes.map (·.name)).Nodup) (hstart : start loaded m = .ok b)
    (hrun : convert.outcome b = (.ok (), b')) : ReadsEarlier (headers b') := by
  obtain ⟨p, hg, ⟨⟩⟩ := bind_cases hstart
  obtain ⟨horder, hprec, hnamed⟩ := graphOf_spec hg hnodup
  exact convertAll_readsEarlier (fun v => convertNode_converts) hnamed horder hprec rfl hrun

end Source.Keras

/-! ## Networks -/

namespace Source

/-- **Converted layers read earlier layers.** When the nodes of a symbol, or the layer objects of a
model, have different names and the conversion succeeds, all that a layer reads stands before it. -/
theorem converted_layers_read_earlier :
    (∀ (nodes : List Value) (sizes : List Int) (arrays : Option (Table Tensor))
      (shapes : Table (List Value)) (b b' : Builder MxNet.Node MxNet.State),
      (nodes.filterMap MxNet.nodeName?).Nodup → MxNet.start nodes sizes arrays shapes = .ok b →
      MxNet.convert.outcome b = (.ok (), b') →
      ∀ pre l post, b'.layers.toList = pre ++ l :: post → ∀ x ∈ l.inputs, ∃ k ∈ pre, k.name = x) ∧
    ∀ (m : Keras.Model) (loaded : Bool) (b b' : Builder Keras.Node Keras.State),
      (m.nodes.map (·.name)).Nodup → Keras.start loaded m = .ok b → Keras.convert.outcome b = (.ok (), b') →
      ∀ pre l post, b'.layers.toList = pre ++ l :: post → ∀ x ∈ l.inputs, ∃ k ∈ pre, k.name = x := by
  constructor
  · intro nodes sizes arrays shapes b b' hnodup hstart hrun pre l post e x hx
    exact (MxNet.convert_spec hnodup hstart hrun).layer e hx
  · intro m loaded b b' hnodup hstart hrun pre l post e x hx
    exact (Keras.convert_spec hnodup hstart hrun).layer e hx

def scaledSymbol : List Value := [
  .record [("op", .text "null"), ("name", .text "data"), ("inputs", .list [])],
  .record [("op", .text "null"), ("name", .text "fc_weight"), ("inputs", .list [])],
  .record [("op", .text "_mul_scalar"), ("name", .text "_twice"), ("inputs", .list [.list [.int 0]]),
    ("attrs", .record [("axis", .text "1")])],
  .record [("op", .text "_copy"), ("name", .text "kept"), ("inputs", .list [.list [.int 2]])],
  .record [("op", .text "_Plus"), ("name", .text "sum"),
    ("inputs", .list [.list [.int 3], .list [.int 0], .list [.int 1]])]]

def denseModel : Keras.Model := { nodes := [
  { kind := "InputLayer", name := "in", properties := .ofList [("output_shape", .tuple [.none, .int 4])] },
  { kind := "Dense", name := "fc", inbound := [["in"]], properties := .ofList [
    ("units", .int 3), ("use_bias", .bool false), ("activation", .text "relu"),
    ("output_shape", .tuple [.none, .int 3])] },
  { kind := "Flatten", name := "flat", inbound := [["fc"]], properties := .ofList [
    ("output_shape", .tuple [.none, .int 3])] }] }

theorem converted_layers_read_earlier_scaled :
    (∃ b b', MxNet.start scaledSymbol [] none ∅ = .ok b ∧ MxNet.convert.outcome b = (.ok (), b') ∧
      headers b' = [("data", []), ("_twice_second", []), ("twice", ["data", "_twice_second"]),
        ("sum", ["twice", "data"])] ∧
      ∀ pre l post, b'.layers.toList = pre ++ l :: post → ∀ x ∈ l.inputs, ∃ k ∈ pre, k.name = x) ∧
    ∃ b b', Keras.start false denseModel = .ok b ∧ Keras.convert.outcome b = (.ok (), b') ∧
      headers b' = [("in", []), ("fc", ["in"]), ("fc_activation", ["fc"]), ("flat", ["fc_activation"])] ∧
      ∀ pre l post, b'.layers.toList = pre ++ l :: post → ∀ x ∈ l.inputs, ∃ k ∈ pre, k.name = x := by
  constructor
  · obtain ⟨b, b', hstart, hrun, hheaders⟩ : ∃ b b', MxNet.start scaledSymbol [] none ∅ = .ok b ∧
        MxNet.convert.outcome b = (.ok (), b') ∧ headers b' = [("data", []), ("_twice_second", []),
          ("twice", ["data", "_twice_second"]), ("sum", ["twice", "data"])] := ⟨_, _, rfl, rfl, rfl⟩
    exact ⟨b, b', hstart, hrun, hheaders,
      converted_layers_read_earlier.1 scaledSymbol [] none ∅ b b' (by decide) hstart hrun⟩
  · obtain ⟨b, b', hstart, hrun, hheaders⟩ : ∃ b b', Keras.start false denseModel = .ok b ∧
        Keras.convert.outcome b = (.ok (), b') ∧ headers b' = [("in", []), ("fc", ["in"]),
          ("fc_activation", ["fc"]), ("flat", ["fc_activation"])] := ⟨_, _, rfl, rfl, rfl⟩
    exact ⟨b, b', hstart, hrun, hheaders,
      converted_layers_read_earlier.2 denseModel false b b' (by decide) hstart hrun⟩

end Source

end NetBridge
