import NetBridge.Source.MxNet
import NetBridge.Proofs.BuilderSteps

/-!
# Layers of a converted MXNet symbol

A node becomes a layer of its own name, less a low line at its start; a node that only copies has none. The layers read
earlier ones (`convert_spec`).
-/

namespace NetBridge.Source.MxNet

open Run

/-! ## The graph of a symbol -/

def nodeName? (v : Value) : Option String :=
  match v.field? "name" with
  | some (.text s) => some s
  | _ => none

variable {p p' : Graph Node × List String} {places : List (Nat × String)} {nodes : List Value} {f : Nat → Convert Unit}
  {name : String} {v : Value}

theorem wire_eq_ok (h : wire places name p v = .ok p') : p'.1 = p.1 ∨ ∃ a, p'.1 = (p.1.connect a name).1 := by
  unfold wire at h
  split at h
  · cases h
  · split at h
    · cases h
      exact .inr ⟨_, rfl⟩
    · cases h
      exact .inl rfl
    · cases h
  · cases h

variable {seen : List String} {i : Nat}

theorem grown_wire (h : wire places name p v = .ok p') (hg : p.1.Grown seen) (hn : name ∈ seen) : p'.1.Grown seen := by
  obtain e | ⟨a, e⟩ := wire_eq_ok h
  · rwa [e]
  · rw [e]
    exact hg.connect a hn

theorem labelled_wire (h : wire places name p v = .ok p') (hp : p.1.Labelled) : p'.1.Labelled := by
  obtain e | ⟨a, e⟩ := wire_eq_ok h
  · rwa [e]
  · rw [e]
    exact hp.connect a name

theorem place_cons (h : place places i p (v :: nodes) = .ok p') :
    ∃ name, nodeName? v = some name ∧ (place places (i + 1) p nodes = .ok p' ∨
      ∃ node vs q, List.foldlM (wire ((i, name) :: places) name) (p.1.add name node, p.2) vs = .ok q ∧
        place ((i, name) :: places) (i + 1) q nodes = .ok p') := by
  unfold place at h
  cases hname : v.field? "name" with
  | none => rw [hname] at h; cases h
  | some w =>
    rw [hname] at h
    cases w
    case text name =>
      refine ⟨name, by simp [nodeName?, hname], ?_⟩
      simp only [bind, Except.bind, pure, Except.pure] at h
      -- with and without an operator
      split at h
      all_goals
        split at h
        · cases h
        · split at h
          · exact .inl h
          · split at h
            · cases h
            · split at h
              · cases h
              · rename_i q hq
                exact .inr ⟨_, _, q, hq, h⟩
    all_goals cases h

theorem grown_place (h : place places i p nodes = .ok p')
    (hg : p.1.Grown seen) (hnodup : (nodes.filterMap nodeName?).Nodup)
    (hnew : ∀ m ∈ nodes.filterMap nodeName?, m ∉ seen) : ∃ seen', p'.1.Grown seen' := by
  induction nodes generalizing places i p seen with
  | nil =>
    cases h
    exact ⟨seen, hg⟩
  | cons v nodes ih =>
    obtain ⟨name, hname, h⟩ := place_cons h
    rw [List.filterMap_cons_some hname] at hnodup hnew
    obtain ⟨hfirst, hnodup⟩ := List.nodup_cons.mp hnodup
    have hseen : name ∉ seen := hnew name (.head _)
    have hrest : ∀ m ∈ nodes.filterMap nodeName?, m ∉ seen := fun m hm => hnew m (.tail _ hm)
    rcases h with h | ⟨node, vs, q, hq, h⟩
    · exact ih h hg hnodup hrest
    · have hadd : (p.1.add name node).Grown (name :: seen) :=
        (hg.add hseen node).see (Graph.mem_keys_add.mpr (.inl rfl))
      refine ih h (foldlM_keeps (fun _ _ _ hw hp => grown_wire hw hp (.head _)) hq hadd) hnodup fun m hm => ?_
      rw [List.mem_cons, not_or]
      exact ⟨fun e => hfirst (e ▸ hm), hrest m hm⟩

theorem graphOf_spec (h : graphOf nodes = .ok p)
    (hnodup : (nodes.filterMap nodeName?).Nodup) : p.1.order.Nodup ∧ p.1.Preceded p.1.order ∧
      ∀ m v, p.1.vertices.find? m = some v → v.name = m ∧ v.outputName = m := by
  obtain ⟨q, hp, ⟨⟩⟩ := bind_cases h
  obtain ⟨seen, hg⟩ := grown_place hp .empty hnodup fun m _ => List.not_mem_nil
  exact ⟨hg.nodup_order, hg.preceded_order, fun m v hv => hg.find? hv⟩

theorem labelled_place (h : place places i p nodes = .ok p') (hp : p.1.Labelled) : p'.1.Labelled := by
  induction nodes generalizing places i p with
  | nil =>
    cases h
    exact hp
  | cons v nodes ih =>
    obtain ⟨name, -, h | ⟨node, vs, q, hq, h⟩⟩ := place_cons h
    · exact ih h hp
    · exact ih h (foldlM_keeps (P := fun p : Graph Node × List String => p.1.Labelled) (fun _ _ _ => labelled_wire) hq
        (hp.add name node))

theorem labelled_graphOf (h : graphOf nodes = .ok p) : ∃ g : Graph Node, g.Labelled ∧ p.1 = g.finish := by
  obtain ⟨q, hq, ⟨⟩⟩ := bind_cases h
  have hempty : (({}, []) : Graph Node × List String).1.Labelled := .empty
  exact ⟨q.1, labelled_place hq hempty, rfl⟩

/-! ## Steps of a rule -/

-- rules with many steps
set_option synthInstance.maxSize 20000

section
variable {R : Builder Node State → Builder Node State → Prop} {v : Vertex Node} {k : Nat}

instance : Stays R carriesAxes := by unfold carriesAxes; infer_instance

instance (suffix : String) : Stays R (stored v suffix) := by unfold stored; infer_instance

instance (x : Value) : Stays R (outputSizes x) := by unfold outputSizes; infer_instance

instance : Stays R (firstInput k) := by unfold firstInput; infer_instance

instance (source : String) (default : Value) [∀ m, Stays R (attr k m : Convert Attr)]
    [∀ f, Stays R (changeAttr k name f : Convert Unit)] : Stays R (setAxis k name v source default) := by
  unfold setAxis; infer_instance

instance (ns : Convert (List Int)) [Stays R ns] [∀ f, Stays R (changeAttr k name f : Convert Unit)] :
    Stays R (addFramed k name ns) := by unfold addFramed; infer_instance

instance (default : Nat) [∀ f, Stays R (changeAttr k "pads" f)] : Stays R (addPads v k default) := by
  unfold addPads; infer_instance

instance [∀ x, Stays R (addSize k "shape" x)]
    [∀ f, Stays R (changeAttr k "_output_shapes" f)] : Stays R (setShapes v k) := by
  refine .step fun s => ?_
  split <;> infer_instance

section
variable [∀ k m, Stays R (attr k m : Convert Attr)]

instance (fuel : Nat) : Stays R (imageBefore fuel k) := by
  induction fuel generalizing k with
  | zero => unfold imageBefore; infer_instance
  | succ fuel ih => unfold imageBefore; infer_instance

instance (t : Tensor) : Stays R (denseMatrix k t) := by unfold denseMatrix; infer_instance

instance : Stays R (inputChannels k) := by unfold inputChannels; infer_instance

end

variable [∀ key x, Stays R (setWeight v.name key x)]

instance (key suffix : String) : Stays R (storeWeight v key suffix) := by unfold storeWeight; infer_instance

instance (layout : Value) (dim : Nat) (bias : Bool) : Stays R (storeKernel v layout dim bias) := by
  unfold storeKernel; infer_instance

end

section
variable {g : Graph Node} {out : String → String} {known : List String} {v : Vertex Node} {k : Nat}

theorem identify_spec (op : String) : Triple (Drafts g out known k name) (identify v k op)
    fun _ b => ∃ q, Drafts g (Graph.renameAt out v.name q) known k q b := by
  unfold identify
  extract_lets rest
  have hrest (out' : String → String) : Triple (Drafts g out' known k name) (rest ()) fun _ =>
      Drafts g out' known k (out' v.name) := by
    refine .bind_of (outputNameOf_spec (fun _ hb => hb.graph) v.name) fun new hnew => ?_
    rw [hnew]
    exact (setName_spec _).bind fun _ => Quiet.drafts
  split
  · refine (rename_draft v.name _).bind fun _ => (hrest _).post fun _ b hb => ?_
    rw [Graph.renameAt_self] at hb
    exact ⟨_, hb⟩
  · refine (hrest out).post fun _ b hb => ⟨out v.name, ?_⟩
    rw [Graph.renameAt_same]
    exact hb

theorem sources_renamed (hv : Ready g out known v) (q : String) :
    ∀ p ∈ v.sources, Graph.renameAt out v.name q p ∈ known := by
  intro p hp
  rw [Graph.renameAt_of_ne out q (hv.sources p hp).1]
  exact (hv.sources p hp).2

theorem carry_spec (hv : Ready g out known v) (op : String) : Triple (Holds g out known) (carry v op)
    fun k b => ∃ q, Drafts g (Graph.renameAt out v.name q) known k q b := by
  refine newLayer_spec.bind fun k => (identify_spec op).bind fun _ => .exists fun q => ?_
  refine (readSources_spec (sources_renamed hv q) 0 none).bind fun _ => quietly fun _ => ?_
  exact .pure fun b hb => ⟨q, hb⟩

end

/-! ## Rules -/

section
variable {g : Graph Node} {v : Vertex Node}

theorem converts_carry (op : String) (hf : ∀ k, Quiet (f k)) : Converts g v (carry v op >>= f) := by
  intro out known hv
  refine (carry_spec hv op).bind fun k => .exists fun q => ?_
  exact (hf k).drafts.post fun _ b hb => ⟨q, hb.finish⟩

theorem draft_reads {out : String → String} {known : List String} (hv : Ready g out known v) (k : Nat)
    (q : String) {x : Convert Unit} [Quiet x] : Triple (Drafts g (Graph.renameAt out v.name q) known k q)
      (readSources v k >>= fun _ => x) fun _ b => ∃ q, Holds g (Graph.renameAt out v.name q) (q :: known) b := by
  refine (readSources_spec (sources_renamed hv q) 0 none).bind fun _ => ?_
  exact Quiet.drafts.post fun _ b hb => ⟨q, hb.finish⟩

theorem converts_draft (op : String) (hf : ∀ k, Quiet (f k)) :
    Converts g v (newLayer >>= fun k => identify v k op >>= fun _ => readSources v k >>= fun _ => f k) := by
  intro out known hv
  refine newLayer_spec.bind fun k => (identify_spec op).bind fun _ => .exists fun q => ?_
  exact draft_reads hv k q

theorem dense_converts : Converts g v (dense v) := by
  refine converts_carry _ fun k => ?_
  iterate 5 refine .step fun _ => ?_
  split
  · exact .step fun t => .step fun t' => inferInstance
  · infer_instance

theorem batchNorm_converts : Converts g v (batchNorm v) := by
  refine converts_carry _ fun k => ?_
  iterate 5 refine .step fun _ => ?_
  infer_instance

theorem carried_converts (op : String) : Converts g v (do let _ ← carry v op) :=
  converts_carry _ fun _ => inferInstance

theorem reshape_converts : Converts g v (reshape v) := by
  refine converts_carry _ fun k => .step fun s => ?_
  split
  · infer_instance
  · refine .step fun ns => ?_
    split <;> infer_instance

theorem activation_converts : Converts g v (activation v) := by
  refine .after fun s => ?_
  split <;> exact .after fun op => carried_converts op

theorem deconvolution_converts : Converts g v (deconvolution v) := by
  refine converts_draft _ fun k => ?_
  split
  · infer_instance
  · iterate 6 refine .step fun _ => ?_
    infer_instance

theorem pooling_converts : Converts g v (pooling v) := by
  refine converts_draft _ fun k => .step fun kind => ?_
  split
  -- what follows is the same for all kinds of pooling
  all_goals
    iterate 4 refine .step fun _ => ?_
    split <;> infer_instance

theorem convolution_converts : Converts g v (convolution v) := by
  intro out known hv
  refine newLayer_spec.bind fun k => ?_
  refine (readSources_spec (fun p hp => (hv.sources p hp).2) 0 none).bind fun _ => ?_
  iterate 9 refine quietly fun _ => ?_
  refine (identify_spec _).bind fun _ => .exists fun q => ?_
  iterate 6 refine quietly fun _ => ?_
  exact Quiet.drafts.post fun _ b hb => ⟨q, hb.finish⟩

theorem leakyRelu_converts : Converts g v (leakyRelu v) := by
  refine .after fun kind => ?_
  dsimp only
  split
  on_goal 1 => refine .after fun _ => ?_
  all_goals
    intro out known hv
    refine newLayer_spec.bind fun k => ?_
    split
    · refine (identify_spec _).bind fun _ => .exists fun q => quietly fun _ => ?_
      exact draft_reads hv k q
    · exact (identify_spec _).bind fun _ => .exists fun q => draft_reads hv k q

theorem copy_converts : Converts g v (copy v) := by
  intro out known hv
  refine .bind_of (parent_spec v.name) fun w hw => ?_
  obtain ⟨p, hp, hw⟩ := hw
  refine (rename_spec v.name w.outputName).post fun _ b hb => ⟨w.outputName, hb.mono ?_⟩
  rw [hw]
  exact List.cons_subset.mpr ⟨(hv.sources p (hv.listed ▸ hp)).2, .refl _⟩

theorem withNumber_converts (op : String) : Converts g v (withNumber op v) := by
  refine .after fun value => ?_
  intro out known hv
  refine newLayer_spec.bind fun c => ?_
  refine .bind_of (outputNameOf_spec (fun _ hb => hb.graph) v.name) fun name _ => ?_
  refine (setName_spec (name ++ "_second")).bind fun _ => quietly fun _ => ?_
  refine quietly fun t => quietly fun _ => ?_
  -- the layer of the number is finished, and the layer of the operator may read it
  have hready : Ready g out ((name ++ "_second") :: known) v :=
    ⟨hv.own, fun p hp => ⟨(hv.sources p hp).1, .tail _ (hv.sources p hp).2⟩, hv.listed⟩
  have hcarry : Triple (Drafts g out known c (name ++ "_second")) (carry v op) _ :=
    (carry_spec hready op).pre fun _ hb => hb.finish
  refine hcarry.bind fun k => .exists fun q => ?_
  exact (addInput_spec (.head _)).post fun _ b hb => ⟨q, hb.finish.forget⟩

theorem unknown_converts (op : String) : Converts g v (unknown v op) := by
  refine .after fun _ => ?_
  split
  · exact .after fun _ => carried_converts _
  · exact .throw _

theorem rule_converts {op : String} {r : Vertex Node → Convert Unit} (h : rule? op = some r) :
    Converts g v (r v) := by
  unfold rule? at h
  split at h
  all_goals cases h
  all_goals first
    | with_reducible exact dense_converts
    | with_reducible exact convolution_converts
    | with_reducible exact activation_converts
    | with_reducible exact batchNorm_converts
    | with_reducible exact pooling_converts
    | with_reducible exact deconvolution_converts
    | with_reducible exact leakyRelu_converts
    | with_reducible exact reshape_converts
    | with_reducible exact copy_converts
    | with_reducible exact withNumber_converts _
    | (dsimp only [softmaxOutput, embedding]; with_reducible exact converts_draft _ fun _ => inferInstance)
    | with_reducible exact .throw _
    -- the others carry the vertex over and only set attributes then
    | exact converts_carry _ fun _ => inferInstance

theorem convertNode_converts : Converts g v (convertNode v) := by
  refine .after fun op => ?_
  split
  · rename_i r hr
    exact rule_converts hr
  · exact unknown_converts op

end

theorem convert_spec {sizes : List Int} {arrays : Option (Table Tensor)}
    {shapes : Table (List Value)} {b b' : Builder Node State}
    (hnodup : (nodes.filterMap nodeName?).Nodup) (hstart : start nodes sizes arrays shapes = .ok b)
    (hrun : convert.outcome b = (.ok (), b')) : ReadsEarlier (headers b') := by
  obtain ⟨p, hg, ⟨⟩⟩ := bind_cases hstart
  obtain ⟨horder, hprec, hnamed⟩ := graphOf_spec hg hnodup
  exact convertAll_readsEarlier (fun v => convertNode_converts) hnamed horder hprec rfl hrun

end NetBridge.Source.MxNet
