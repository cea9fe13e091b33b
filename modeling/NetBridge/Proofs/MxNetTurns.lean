import NetBridge.Proofs.MxNetShares

/-!
# Turns of the nodes of a symbol

Of the conversion the turn of a node sees shapes, arrays, the outputs of its sources and the layers reached from them,
and answers on the layout in force (`View`). At all sites with one view it adds one share (`convertNode_local`).
-/

namespace NetBridge.Source.MxNet

open Run List

-- rules with many steps
set_option synthInstance.maxSize 2000

/-- The questions that the turn of a node asks of the layout in force: is it one of these? Output shapes ask for
channels last, axes for channels first, and the matrix of a dense layer for that of another. -/
def layoutQuestions (shapes : Table (List Value)) (loaded : Bool) (v : Vertex Node) : List (List String) :=
  (if (shapes.find? v.name).isSome then [lastLayouts] else []) ++
    (if ["BatchNorm", "softmax", "Concat", "expand_dims"].any (v.item.op == some ·) then [firstLayouts ++ ["None"]]
      else []) ++
    if v.item.op == some "FullyConnected" && loaded then [["NM"]] else []

def numberName? (v : Vertex Node) : Option String :=
  if v.item.op = some "_mul_scalar" ∨ v.item.op = some "_minus_scalar" then some (v.name ++ "_second") else none

def layerNames (v : Vertex Node) : List String := stripped v.name :: (numberName? v).toList

/-- What the turn of a node can see: the data of the conversion, the layout in force, the names of outputs, and
the layers by name. -/
structure View where
  shapes : Table (List Value)
  arrays : Option (Table Tensor)
  loaded : Bool
  layout : Value
  out : String → String
  layer : String → Layer → Prop

structure Site (view : View) (v : Vertex Node) (c : Base) : Prop where
  shapes : c.own.shapes = view.shapes
  arrays : c.own.arrays = view.arrays
  loaded : c.loaded = view.loaded
  layout : ∀ q ∈ layoutQuestions view.shapes view.loaded v, layoutIn c.own.layout q = layoutIn view.layout q
  self : ∃ u, c.graph.vertices.find? v.name = some u ∧ u.outputName = v.name ∧ u.sources = v.sources
  sources : ∀ m ∈ v.sources, m ≠ v.name ∧ (∃ u, c.graph.vertices.find? m = some u ∧ u.outputName = view.out m) ∧
    ∃ l, view.layer (view.out m) l
  known : ∀ x l, view.layer x l → x ≠ stripped v.name ∧
    (∃ p, c.own.byName.find? x = some p ∧ c.layers[p]? = some l) ∧
    ∀ y, l.inputs.head? = some y → (∃ l', view.layer y l') ∨ y ≠ stripped v.name ∧ c.own.byName.find? y = none

variable {b c t : Base} {dims : List Int} {m op x : String}

section
variable {β : Type} {view : View} {v : Vertex Node} {F : Frame}

/-! ## Steps that read the state -/

def View.state (view : View) (s : Share) : State :=
  { shapes := view.shapes, arrays := view.arrays, layout := s.layout.getD view.layout }

variable {f : Base → State → Convert β}

theorem Uniform.own {Q : (Base → β) → Frame → Prop}
    (h : ∀ s c, Site view v c → f c (s.on v.name c).own = f c (view.state s))
    (hf : ∀ s, Uniform (Site view v) v.name F (fun c => f c (view.state s)) Q) :
    Uniform (Site view v) v.name F (fun c => Source.own >>= f c) Q := by
  intro s hs b hb a t ht
  have hbind (c : Base) (hc : Site view v c) : (Source.own >>= f c).outcome (s.on v.name c) =
      (f c (view.state s)).outcome (s.on v.name c) := by
    rw [← h s c hc]
    rfl
  rw [hbind b hb] at ht
  obtain ⟨r, s', hr, hall⟩ := hf s s hs b hb a t ht
  exact ⟨r, s', hr, fun c hc => by rw [hbind c hc]; exact hall c hc⟩

theorem calm_own (h : ∀ s c, Site view v c → f c (s.on v.name c).own = f c (view.state s))
    (hf : ∀ s, Calm (Site view v) v.name fun c => f c (view.state s)) :
    Calm (Site view v) v.name fun c => own >>= f c :=
  ⟨fun F => .own h fun s => (hf s).uniform F⟩

theorem hasWeights_does : Does (Site view v) v.name F (fun _ => hasWeights) (fun _ => view.loaded) F := by
  intro s hs b hb a t h
  refine ⟨fun _ => view.loaded, s, ⟨rfl, hs⟩, fun c hc => ?_⟩
  rw [← hc.loaded]
  rfl

instance : Calm (Site view v) v.name fun _ => hasWeights :=
  ⟨fun _ => hasWeights_does.imp fun _ _ h => ⟨h.2, _, h.1⟩⟩

instance (suffix : String) : Calm (Site view v) v.name fun _ => stored v suffix := by
  refine calm_own (fun s c hc => ?_) fun s => inferInstance
  show (do
    let arrays ← orFault Fault.property c.own.arrays
    orFault Fault.property (arrays.find? (v.name ++ suffix)) : Convert Tensor) = _
  rw [hc.arrays]
  rfl

theorem calm_storeWeight {name : String} (h : name ≠ "value") (suffix : String) :
    Calm (Site view v) v.name fun _ => storeWeight v name suffix := by
  unfold storeWeight
  have hset (x : Value) : Calm (Site view v) v.name fun _ => setWeight v.name name x :=
    calm_setWeight h x
  infer_instance

theorem layoutIn_on (hc : Site view v c) {q : List String}
    (hq : q ∈ layoutQuestions view.shapes view.loaded v) (s : Share) :
    layoutIn (s.on v.name c).own.layout q = layoutIn (view.state s).layout q := by
  show layoutIn (s.layout.getD c.own.layout) q = layoutIn (s.layout.getD view.layout) q
  cases s.layout with
  | none => exact hc.layout q hq
  | some l => rfl

theorem layoutIn_append (l : Value) (p q : List String) : layoutIn l (p ++ q) = (layoutIn l p || layoutIn l q) := by
  cases l <;> simp [layoutIn]

theorem calm_setAxis (hop : ["BatchNorm", "softmax", "Concat", "expand_dims"].any (v.item.op == some ·) = true)
    (i : Nat)
    (name from_ : String) (default : Value) :
    Calm (Site view v) v.name fun c => setAxis (c.layers.size + i) name v from_ default := by
  have hq : firstLayouts ++ ["None"] ∈ layoutQuestions view.shapes view.loaded v := by
    simp only [layoutQuestions, hop]
    simp
  have haxes : Calm (Site view v) v.name fun _ => carriesAxes := by
    refine calm_own (fun s c hc => ?_) fun s => inferInstance
    dsimp only
    rw [← layoutIn_append, ← layoutIn_append, layoutIn_on hc hq]
  unfold setAxis
  infer_instance

theorem calm_outputSizes (hshape : (view.shapes.find? v.name).isSome = true) (x : Value) :
    Calm (Site view v) v.name fun _ => outputSizes x := by
  have hq : lastLayouts ∈ layoutQuestions view.shapes view.loaded v := by
    simp only [layoutQuestions, hshape]
    simp
  refine calm_own (fun s c hc => ?_) fun s => inferInstance
  rw [layoutIn_on hc hq]

instance (i : Nat) : Calm (Site view v) v.name fun c => setShapes v (c.layers.size + i) := by
  refine calm_own (fun s c hc => ?_) fun s => ?_
  · have hshapes : (s.on v.name c).own.shapes = (view.state s).shapes := hc.shapes
    rw [hshapes]
  · show Calm (Site view v) v.name fun c => match view.shapes.find? v.name with
      | none => pure ()
      | some outs => _
    cases h : view.shapes.find? v.name with
    | none => infer_instance
    | some outs =>
      have := calm_outputSizes (by rw [h]; rfl)
      infer_instance

/-! ## Steps that name and read -/

theorem find?_on_self (hc : Site view v c) (s : Share) : ∃ u,
    (s.on v.name c).graph.vertices.find? v.name = some u ∧ u.outputName = s.output.getD v.name ∧
      u.sources = v.sources := by
  obtain ⟨u, hu, hname, hsources⟩ := hc.self
  cases h : s.output with
  | none => exact ⟨u, by simp [Share.on, h, hu], by simp [hname], hsources⟩
  | some q => exact ⟨{ u with outputName := q }, by simp [Share.on, h, Graph.modify, hu], rfl, hsources⟩

theorem find?_on_source (hc : Site view v c) (s : Share) (hm : m ∈ v.sources) : ∃ u,
    (s.on v.name c).graph.vertices.find? m = some u ∧ u.outputName = view.out m := by
  obtain ⟨hne, ⟨u, hu, hname⟩, -⟩ := hc.sources m hm
  refine ⟨u, ?_, hname⟩
  cases h : s.output with
  | none => simp [Share.on, h, hu]
  | some q => simp [Share.on, h, Graph.modify, hu, hne.symm]

variable {u : Vertex Node} {k p : Nat} {l : Layer} {path : List Nat}

theorem outputNameOf_eq (h : b.graph.vertices.find? m = some u) :
    (outputNameOf m : Convert String).outcome b = (.ok u.outputName, b) := by
  refine bind_ok (bind_ok rfl (lift_ok ?_)) rfl
  simp [Graph.vertex, Table.get, h]

theorem outputNameOf_self : Does (Site view v) v.name F (fun _ => outputNameOf v.name)
    (fun _ => F.output.getD v.name) F := by
  intro s hs b hb a t h
  refine ⟨fun _ => F.output.getD v.name, s, ⟨rfl, hs⟩, fun c hc => ?_⟩
  obtain ⟨u, hu, hname, -⟩ := find?_on_self hc s
  rw [outputNameOf_eq hu, hname, ← hs]
  rfl

theorem outputNameOf_source (hm : m ∈ v.sources) :
    Does (Site view v) v.name F (fun _ => outputNameOf m) (fun _ => view.out m) F := by
  intro s hs b hb a t h
  refine ⟨fun _ => view.out m, s, ⟨rfl, hs⟩, fun c hc => ?_⟩
  obtain ⟨u, hu, hname⟩ := find?_on_source hc s hm
  rw [outputNameOf_eq hu, hname]

variable {name : String} {ins : List String}

section
variable {hs : List (String × List String)}

theorem readSource_does (hF : F.headers = hs ++ [(name, ins)]) {i : Nat} (hi : i < v.sources.length) :
    Does (Site view v) v.name F (fun c => do
      addInput (c.layers.size + hs.length) (← outputNameOf (← orFault Fault.position v.sources[i]?)))
    (fun _ => ()) { F with headers := hs ++ [(name, ins ++ [view.out v.sources[i]])] } := by
  refine .given fun m hm => ?_
  obtain rfl : v.sources[i] = m := by simpa [hi, orFault] using hm
  refine .step (outputNameOf_source (getElem_mem hi)) ?_
  exact addInput_does hF _

theorem readSources_does (hF : F.headers = hs ++ [(name, ins)]) :
    Does (Site view v) v.name F (fun c => readSources v (c.layers.size + hs.length)) (fun _ => ())
      { F with headers := hs ++ [(name, ins ++ v.sources.map view.out)] } := by
  -- the sources from `i` on, after those before `i`
  have hall (todo : Nat) : ∀ i, i + todo = v.sources.length → ∀ ins F, F.headers = hs ++ [(name, ins)] →
      Does (Site view v) v.name F (fun c => (range' i todo).forM fun i => do
          addInput (c.layers.size + hs.length) (← outputNameOf (← orFault Fault.position v.sources[i]?)))
        (fun _ => ()) { F with headers := hs ++ [(name, ins ++ (v.sources.drop i).map view.out)] } := by
    induction todo with
    | zero =>
      intro i hi ins F hF
      have hdrop : v.sources.drop i = [] := drop_eq_nil_of_le (by omega)
      rw [hdrop, map_nil, append_nil, ← hF]
      exact .pure fun _ => ()
    | succ todo ih =>
      intro i hi ins F hF
      have hlt : i < v.sources.length := by omega
      refine .step (readSource_does hF hlt) ?_
      have hrest := ih (i + 1) (by omega) _ { F with headers := hs ++ [(name, ins ++ [view.out v.sources[i]])] } rfl
      rw [append_assoc, singleton_append, ← map_cons, ← drop_eq_getElem_cons hlt] at hrest
      exact hrest
  unfold readSources
  simpa [range_eq_range'] using hall v.sources.length 0 (Nat.zero_add _) ins F hF

theorem identify_does (hF : F.headers = hs ++ [(name, ins)]) (hout : F.output = none) (hnamed : F.named = none)
    (op : String) : Does (Site view v) v.name F (fun c => identify v (c.layers.size + hs.length) op) (fun _ => ())
      { F with output := ownName? v.name, headers := hs ++ [(stripped v.name, ins)], named := some hs.length } := by
  obtain ⟨output, headers, named, layout⟩ := F
  cases hF
  cases hout
  cases hnamed
  have hrest : Does (Site view v) v.name ⟨ownName? v.name, hs ++ [(name, ins)], none, layout⟩ (fun c => do
        let name ← outputNameOf v.name
        setName (c.layers.size + hs.length) name
        setOp (c.layers.size + hs.length) op
        modifyOwn fun s => { s with byName := s.byName.insert name (c.layers.size + hs.length) })
      (fun _ => ()) ⟨ownName? v.name, hs ++ [(stripped v.name, ins)], some hs.length, layout⟩ := by
    refine .step outputNameOf_self ?_
    refine .step (setName_does rfl _) ?_
    refine .calm fun _ => ?_
    exact setByName_does rfl hs.length
  unfold identify
  by_cases h : Text.startsWith v.name "_" = true
  · have hname : ownName? v.name = some (Text.drop 1 v.name) := if_pos h
    rw [hname] at hrest ⊢
    simp only [h]
    exact .step (rename_does rfl _) hrest
  · have hname : ownName? v.name = none := if_neg h
    rw [hname] at hrest ⊢
    simp only [h]
    exact hrest

end

theorem carry_does (hout : F.output = none) (hnamed : F.named = none) (op : String) :
    Does (Site view v) v.name F (fun _ => carry v op) (fun c => c.layers.size + F.headers.length)
      { F with output := ownName? v.name, headers := F.headers ++ [(stripped v.name, v.sources.map view.out)],
               named := some F.headers.length } := by
  obtain ⟨output, headers, named, layout⟩ := F
  cases hout
  cases hnamed
  refine .step newLayer_does ?_
  refine .step (identify_does rfl rfl rfl op) ?_
  refine .step (readSources_does rfl) ?_
  refine .calm fun _ => ?_
  exact Does.pure _

/-! ## Looking back -/

theorem firstInput_eq_ok (h : (firstInput k).outcome b = (.ok p, t)) : ReadsFirst b k p ∧ t = b := by
  obtain ⟨l, b₁, ⟨⟩, h₁⟩ := step_cases h
  obtain ⟨x, hx, h₂⟩ := lift_cases h₁
  obtain ⟨st, b₃, ⟨⟩, h₃⟩ := step_cases h₂
  obtain ⟨hp, rfl⟩ := lift_eq_ok.mp h₃
  exact ⟨⟨x, orFault_eq_ok.mp hx, orFault_eq_ok.mp hp⟩, rfl⟩

theorem outputDims_eq_ok
    (h : (outputDims p : Convert (List Int)).outcome b = (.ok dims, t)) : firstShape b p = some dims ∧ t = b := by
  have htouch : ((b.layers.modify p (·.touch "_output_shapes")).getD p {}).attr "_output_shapes" =
      (b.layers.getD p {}).attr "_output_shapes" := by
    by_cases hp : p < b.layers.size
    · simp [hp, Array.getElem_modify, Layer.touch, Layer.attr]
    · simp [hp]
  have hshape : firstShape b p = some dims := by
    rw [outputDims_run, htouch] at h
    exact orFault_eq_ok.mp (Prod.mk.inj h).1
  rw [outputDims_outcome hshape] at h
  exact ⟨hshape, (Prod.mk.inj h).2.symm⟩

theorem imageBefore_eq_ok {fuel : Nat} {image : List Int} (h : (imageBefore fuel k).outcome b = (.ok image, t)) :
    t = b ∧ ∃ path dims, Traced b path k dims ∧ image = dims.getLastD 0 :: dims.dropLast.drop 1 := by
  induction fuel generalizing k with
  | zero => cases h
  | succ fuel ih =>
    obtain ⟨p, b₁, hp, h₁⟩ := step_cases h
    obtain ⟨hread, hb₁⟩ := firstInput_eq_ok hp
    subst hb₁
    obtain ⟨dims, b₂, hdims, h₂⟩ := step_cases h₁
    obtain ⟨hshape, hb₂⟩ := outputDims_eq_ok hdims
    subst hb₂
    split at h₂
    · rename_i hflat
      obtain ⟨rfl, path, dims', htrace, rfl⟩ := ih h₂
      exact ⟨rfl, _, _, .back hread hshape hflat htrace, rfl⟩
    · obtain ⟨rfl, rfl⟩ := pure_eq_ok.mp h₂
      exact ⟨rfl, _, _, .here hread hshape (by omega), rfl⟩

theorem byName_on (s : Share) (hx : x ≠ stripped v.name) :
    (s.on v.name c).own.byName.find? x = c.own.byName.find? x := by
  cases h : s.named with
  | none => simp [Share.on, h]
  | some i => simp [Share.on, h, hx.symm]

theorem Site.found (hc : Site view v c) (s : Share) (hl : view.layer x l) :
    ∃ p, (s.on v.name c).own.byName.find? x = some p ∧ (s.on v.name c).layers.getD p {} = l := by
  obtain ⟨hx, ⟨p, hp, hlayer⟩, -⟩ := hc.known x l hl
  refine ⟨p, by rw [byName_on s hx, hp], ?_⟩
  obtain ⟨hlt, rfl⟩ := Array.getElem?_eq_some_iff.mp hlayer
  simp [Share.on, Array.getElem?_append, hlt]

theorem Traced.reads (h : Traced b path k dims) : ∃ p, ReadsFirst b k p := by
  cases h with
  | here hr _ _ => exact ⟨_, hr⟩
  | back hr _ _ _ => exact ⟨_, hr⟩

theorem Traced.elsewhere (hb : Site view v b) (hc : Site view v c) {s : Share}
    {k' : Nat} (h : Traced (s.on v.name b) path k dims) (hk : ((s.on v.name b).layers.getD k {}).inputs.head? = some x)
    (hk' : ((s.on v.name c).layers.getD k' {}).inputs.head? = some x) (hl : view.layer x l) :
    ∃ path', Traced (s.on v.name c) path' k' dims := by
  have hread {b : Base} (hb : Site view v b) {k p : Nat} {x : String} {l : Layer}
      (hk : ((s.on v.name b).layers.getD k {}).inputs.head? = some x) (hl : view.layer x l)
      (hr : ReadsFirst (s.on v.name b) k p) : (s.on v.name b).layers.getD p {} = l := by
    obtain ⟨y, hy, hp⟩ := hr
    cases hk.symm.trans hy
    obtain ⟨q, hq, hlayer⟩ := hb.found s hl
    rw [hq] at hp
    exact Option.some.inj hp ▸ hlayer
  induction h generalizing k' x l with
  | here hr hs hlen =>
    obtain ⟨q, hq, hlayer⟩ := hc.found s hl
    refine ⟨_, .here ⟨x, hk', hq⟩ ?_ hlen⟩
    rw [← hs, firstShape, firstShape, hlayer, hread hb hk hl hr]
  | back hr hs hlen hrest ih =>
    obtain ⟨q, hq, hlayer⟩ := hc.found s hl
    have hp := hread hb hk hl hr
    obtain ⟨p', y, hy, hp'⟩ := hrest.reads
    rw [hp] at hy
    -- the layer reads one of the view, since a name outside of it is not known
    obtain ⟨l', hl'⟩ : ∃ l', view.layer y l' := by
      rcases (hb.known x l hl).2.2 y hy with hy' | ⟨hne, hnone⟩
      · exact hy'
      · rw [byName_on s hne, hnone] at hp'
        cases hp'
    obtain ⟨path', hpath'⟩ := ih (by rw [hp, hy]) (by rw [hlayer, hy]) hl'
    refine ⟨_, .back ⟨x, hk', hq⟩ ?_ hlen hpath'⟩
    rw [← hs, firstShape, firstShape, hlayer, hp]

theorem inputs_on (hF : F.headers = [(name, ins)]) {s : Share} (hframe : s.frame = F) (c : Base) :
    ((s.on v.name c).layers.getD (c.layers.size + 0) {}).inputs = ins := by
  subst hframe
  obtain ⟨l, hlayers, hl⟩ := map_eq_singleton_iff.mp hF
  have hget : (s.on v.name c).layers.getD (c.layers.size + 0) {} = l := by
    rw [Share.on, append_getD, hlayers]
    rfl
  rw [hget]
  exact congrArg Prod.snd hl

theorem Site.head (hc : Site view v c) (hx : (v.sources.map view.out).head? = some x) : ∃ l, view.layer x l := by
  obtain ⟨m, hm, rfl⟩ := mem_map.mp (mem_of_head? hx)
  exact (hc.sources m hm).2.2

theorem denseMatrix_uniform (hF : F.headers = [(name, v.sources.map view.out)]) (m : Tensor) :
    Uniform (Site view v) v.name F (fun c => denseMatrix (c.layers.size + 0) m)
      fun r F' => F' = F ∧ ∃ a, r = fun _ => a := by
  intro s hframe b hb a t h
  obtain ⟨_, b₁, ⟨⟩, h₁⟩ := step_cases h
  obtain ⟨image, b₂, himage, h₂⟩ := step_cases h₁
  obtain ⟨hb₂, path, dims, htrace, hdims⟩ := imageBefore_eq_ok himage
  subst hb₂
  obtain ⟨r, s', hr, hall⟩ := Calm.uniform (x := fun _ => _) F s hframe b hb a t h₂
  refine ⟨r, s', hr, fun c hc => ?_⟩
  obtain ⟨p, x, hx, -⟩ := htrace.reads
  obtain ⟨l, hl⟩ := hb.head (by rw [inputs_on hF hframe] at hx; exact hx)
  obtain ⟨path', htrace'⟩ := htrace.elsewhere hb hc hx (by rw [inputs_on hF hframe] at hx ⊢; exact hx) hl
  refine bind_ok rfl (bind_eq_ok.mpr ⟨image, _, ?_, hall c hc⟩)
  rw [hdims]
  exact htrace'.imageBefore_outcome (Nat.le_succ_of_le htrace'.length_le)

theorem inputChannels_uniform (hF : F.headers = [(name, v.sources.map view.out)]) :
    Uniform (Site view v) v.name F (fun c => inputChannels (c.layers.size + 0))
      fun r F' => F' = F ∧ ∃ a, r = fun _ => a := by
  intro s hframe b hb a t h
  obtain ⟨p, b₁, hp, h₁⟩ := step_cases h
  obtain ⟨⟨x, hx, hfind⟩, rfl⟩ := firstInput_eq_ok hp
  obtain ⟨dims, b₂, hdims, h₂⟩ := step_cases h₁
  obtain ⟨hshape, rfl⟩ := outputDims_eq_ok hdims
  obtain ⟨hlast, rfl⟩ := lift_eq_ok.mp h₂
  refine ⟨fun _ => a, s, ⟨hframe, a, rfl⟩, fun c hc => ?_⟩
  rw [inputs_on hF hframe] at hx
  obtain ⟨l, hl⟩ := hb.head hx
  obtain ⟨q, hq, hlayer⟩ := hb.found s hl
  obtain ⟨q', hq', hlayer'⟩ := hc.found s hl
  cases hfind.symm.trans hq
  have hshape' : firstShape (s.on v.name c) q' = some dims := by
    rw [← hshape, firstShape, firstShape, hlayer, hlayer']
  refine bind_ok (firstInput_outcome ⟨x, by rw [inputs_on hF hframe]; exact hx, hq'⟩) ?_
  exact bind_ok (outputDims_outcome hshape') (lift_ok hlast)

/-! ## Rules -/

def layoutSet? (v : Vertex Node) : Option Value :=
  match v.item.op with
  | some "FullyConnected" => some (.text "NM")
  | some "Convolution" | some "Deconvolution" => do
    let kernel ← ((setting v "kernel").bind wholesOf).toOption
    (layoutOf v kernel.length).toOption
  | _ => none

/-- The frame that the turn of a node leaves. A node that only copies has its output stand for that of a source.
Any other has a layer by its name, which reads the outputs of the sources, or the number, first. -/
def Turned (out : String → String) (v : Vertex Node) (F : Frame) : Prop :=
  (v.item.op = some "_copy" ∧ ∃ m ∈ v.sources, F = { output := some (out m) }) ∨
  v.item.op ≠ some "_copy" ∧ F.output = ownName? v.name ∧ F.layout = layoutSet? v ∧
    (∀ h ∈ F.headers, h.1 ∈ layerNames v) ∧ ∃ i ins, F.named = some i ∧ F.headers[i]? = some (stripped v.name, ins) ∧
      ∀ y, ins.head? = some y → (∃ m ∈ v.sources, y = out m) ∨ numberName? v = some y

def Turns (view : View) (v : Vertex Node) (x : Convert Unit) : Prop :=
  Uniform (Site view v) v.name {} (fun _ => x) fun _ F => Turned view.out v F

def Frame.ofLayer (view : View) (v : Vertex Node) (layout : Option Value) : Frame :=
  ⟨ownName? v.name, [(stripped v.name, v.sources.map view.out)], some 0, layout⟩

theorem turned_ofLayer {layout : Option Value} (hop : v.item.op ≠ some "_copy") (hlayout : layout = layoutSet? v) :
    Turned view.out v (.ofLayer view v layout) := by
  refine .inr ⟨hop, rfl, hlayout, by simp [Frame.ofLayer, layerNames], 0, _, rfl, rfl, fun y hy => .inl ?_⟩
  obtain ⟨m, hm, rfl⟩ := mem_map.mp (mem_of_head? hy)
  exact ⟨m, hm, rfl⟩

theorem dense_turns (hop : v.item.op = some "FullyConnected") :
    Turns view v (dense v) := by
  refine .imp (Q := fun _ F' => F' = Frame.ofLayer view v (some (.text "NM"))) ?_ fun _ F' hF' => ?_
  rotate_left
  · exact hF' ▸ turned_ofLayer (by simp [hop]) (by simp [layoutSet?, hop])
  refine .step (carry_does rfl rfl _) ?_
  refine .calm fun units => ?_
  refine .calm fun _ => ?_
  refine .calm fun nobias => ?_
  refine .calm fun _ => ?_
  refine .step hasWeights_does ?_
  have hend : Uniform (Site view v) v.name
      (.ofLayer view v none)
      (fun _ => modifyOwn fun s => { s with layout := .text "NM" }) fun _ F' => F' =
        .ofLayer view v (some (.text "NM")) :=
    (setLayout_does _).imp fun _ _ h => h.2
  have hstore (t : Tensor) : Uniform (Site view v) v.name
      (.ofLayer view v none) (fun _ => do
        setWeight v.name "weights" (Value.array t)
        if (!nobias) = true then storeWeight v "bias" "_bias"
        modifyOwn fun s => { s with layout := .text "NM" }) fun _ F' => F' =
        .ofLayer view v (some (.text "NM")) := by
    refine Calm.bind (calm_setWeight (by decide) _) fun _ => ?_
    split
    · exact Calm.bind (calm_storeWeight (by decide) _) fun _ => hend
    · exact hend
  dsimp only
  split
  · rename_i hloaded
    have hq : ["NM"] ∈ layoutQuestions view.shapes view.loaded v := by simp [layoutQuestions, hop, hloaded]
    refine .calm fun w => ?_
    refine .calm fun t => ?_
    refine .own (fun s c hc => ?_) fun s => ?_
    · rw [layoutIn_on hc hq]
    · split
      · exact hstore t
      · exact .read (denseMatrix_uniform rfl t) fun m => hstore m
  · exact hend

theorem Calm.ofLayer {x : Base → Convert Unit} (hx : Calm (Site view v) v.name x) :
    Uniform (Site view v) v.name (.ofLayer view v none) x fun _ F' => F' = .ofLayer view v none :=
  (hx.uniform _).imp fun _ _ h => h.1

section
variable (hop : v.item.op ≠ some "_copy") (hlayout : layoutSet? v = none)
include hop hlayout

theorem turns_of_ofLayer {x : Convert Unit} (h : Uniform (Site view v) v.name {} (fun _ => x) fun _ F' =>
    F' = .ofLayer view v none) : Turns view v x :=
  h.imp fun _ _ hF => hF ▸ turned_ofLayer hop hlayout.symm

theorem turns_carry {f : Nat → Convert Unit}
    (hf : ∀ i, Calm (Site view v) v.name fun c => f (c.layers.size + i)) : Turns view v (carry v op >>= f) :=
  turns_of_ofLayer hop hlayout (.step (carry_does rfl rfl op) ((hf 0).ofLayer))

theorem turns_draft {op : String} {g f : Nat → Convert Unit}
    (hg : ∀ i, Calm (Site view v) v.name fun c => g (c.layers.size + i))
    (hf : ∀ i, Calm (Site view v) v.name fun c => f (c.layers.size + i)) : Turns view v (do
      let k ← newLayer
      identify v k op
      g k
      readSources v k
      f k) := by
  refine turns_of_ofLayer hop hlayout ?_
  refine .step newLayer_does ?_
  refine .step (identify_does rfl rfl rfl op) ?_
  refine Calm.bind (hg 0) fun _ => ?_
  refine .step (readSources_does rfl) ?_
  exact (hf 0).ofLayer

end

theorem Calm.andThen {γ : Type} {x : Base → Convert β} {f : Base → β → Convert γ} (hx : Calm (Site view v) v.name x)
    (hf : ∀ a, Calm (Site view v) v.name fun c => f c a) : Calm (Site view v) v.name fun c => x c >>= f c :=
  inferInstance

theorem batchNorm_turns (hop : v.item.op = some "BatchNorm") : Turns view v (batchNorm v) := by
  refine turns_carry (by simp [hop]) (by simp [layoutSet?, hop]) fun i => ?_
  have haxis : Calm (Site view v) v.name fun c => setAxis (c.layers.size + i) "axis" v "axis" (.text "1") :=
    calm_setAxis (by simp [hop]) i _ _ _
  have hscale : Calm (Site view v) v.name fun _ => storeWeight v "scale" "_gamma" := calm_storeWeight (by decide) _
  have hbias : Calm (Site view v) v.name fun _ => storeWeight v "bias" "_beta" := calm_storeWeight (by decide) _
  have hmean : Calm (Site view v) v.name fun _ => storeWeight v "mean" "_moving_mean" := calm_storeWeight (by decide) _
  have hvar : Calm (Site view v) v.name fun _ => storeWeight v "var" "_moving_var" := calm_storeWeight (by decide) _
  iterate 9 refine .andThen inferInstance fun _ => ?_
  infer_instance

theorem axis_turns {op name from_ : String} {default : Value}
    (hop : v.item.op = some "softmax" ∨ v.item.op = some "Concat" ∨ v.item.op = some "expand_dims") :
    Turns view v (carry v op >>= fun k => setAxis k name v from_ default) := by
  refine turns_carry ?_ ?_ fun i => calm_setAxis ?_ i _ _ _
  · rcases hop with hop | hop | hop <;> simp [hop]
  · rcases hop with hop | hop | hop <;> simp [layoutSet?, hop]
  · rcases hop with hop | hop | hop <;> simp [hop]

theorem activation_turns (hop : v.item.op = some "Activation") : Turns view v (activation v) := by
  have hcarry (op : String) : Turns view v (carry v op >>= fun _ => pure ()) :=
    turns_carry (by simp [hop]) (by simp [layoutSet?, hop]) fun _ => inferInstance
  refine .calm fun kind => ?_
  split
  · exact .calm fun op => hcarry op
  all_goals exact .calm fun op => hcarry op

theorem reshape_turns (hop : v.item.op = some "reshape") : Turns view v (reshape v) := by
  refine turns_carry (by simp [hop]) (by simp [layoutSet?, hop]) fun i => ?_
  refine .andThen inferInstance fun shape => ?_
  split
  · infer_instance
  · refine .andThen inferInstance fun ns => ?_
    split <;> infer_instance

instance (i : Nat) (name : String) (e : Except Fault (List Int)) :
    Calm (Site view v) v.name fun c => addFramed (c.layers.size + i) name (liftM e) := by
  unfold addFramed
  infer_instance

instance (i : Nat) (name : String) (ns : List Int) :
    Calm (Site view v) v.name fun c => addFramed (c.layers.size + i) name (pure ns) := by
  unfold addFramed
  infer_instance

instance (i default : Nat) : Calm (Site view v) v.name fun c => addPads v (c.layers.size + i) default := by
  unfold addPads
  infer_instance

theorem pooling_turns (hop : v.item.op = some "Pooling") : Turns view v (pooling v) := by
  refine turns_draft (g := fun _ => pure ()) (by simp [hop]) (by simp [layoutSet?, hop]) (fun _ => inferInstance)
    fun i => ?_
  refine .andThen inferInstance fun type => ?_
  split <;> infer_instance

theorem leakyRelu_turns (hop : v.item.op = some "LeakyReLU") : Turns view v (leakyRelu v) := by
  have hplain : v.item.op ≠ some "_copy" := by simp [hop]
  have hlayout : layoutSet? v = none := by simp [layoutSet?, hop]
  refine .calm fun kind => ?_
  have hgamma : Calm (Site view v) v.name fun _ => storeWeight v "gamma" "_gamma" := calm_storeWeight (by decide) _
  dsimp only
  split
  on_goal 1 => refine .calm fun _ => ?_
  -- with a report of the kind and without
  all_goals
    split
    · exact turns_draft hplain hlayout (fun _ => hgamma) fun _ => inferInstance
    · exact turns_draft (g := fun _ => pure ()) hplain hlayout (fun _ => inferInstance) fun _ => inferInstance

theorem softmaxOutput_turns (hop : v.item.op = some "SoftmaxOutput") : Turns view v (softmaxOutput v) := by
  refine turns_draft (g := fun _ => pure ()) (by simp [hop]) (by simp [layoutSet?, hop]) (fun _ => inferInstance)
    fun i => ?_
  infer_instance

theorem embedding_turns (hop : v.item.op = some "Embedding") : Turns view v (embedding v) :=
  turns_draft (g := fun _ => pure ()) (by simp [hop]) (by simp [layoutSet?, hop]) (fun _ => inferInstance)
    fun _ => inferInstance

theorem unknown_turns (hop : v.item.op = some op) (hrule : rule? op = none) : Turns view v (unknown v op) := by
  have hplain : v.item.op ≠ some "_copy" := by
    rw [hop]
    rintro h
    cases h
    cases hrule
  have hlayout : layoutSet? v = none := by
    unfold layoutSet?
    rw [hop]
    split
    · rename_i h
      cases h
      cases hrule
    · rename_i h
      cases h
      cases hrule
    · rename_i h
      cases h
      cases hrule
    · rfl
  refine .calm fun _ => ?_
  split
  · exact .calm fun _ => turns_carry hplain hlayout fun _ => inferInstance
  · exact .throw

theorem layoutSet?_conv {given : Value} {kernel : List Int} {layout : Value}
    (hop : v.item.op = some "Convolution" ∨ v.item.op = some "Deconvolution") (hgiven : setting v "kernel" = .ok given)
    (hkernel : wholesOf given = .ok kernel) (hlayout : layoutOf v kernel.length = .ok layout) :
    layoutSet? v = some layout := by
  rcases hop with hop | hop <;> simp [layoutSet?, hop, hgiven, hkernel, hlayout, Except.bind, Except.toOption]

theorem storeKernel_calm (layout : Value) (dim : Nat) (bias : Bool) :
    Calm (Site view v) v.name fun _ => storeKernel v layout dim bias := by
  unfold storeKernel
  have hset (x : Value) : Calm (Site view v) v.name fun _ => setWeight v.name "weights" x :=
    calm_setWeight (by decide) x
  have hbias : Calm (Site view v) v.name fun _ => storeWeight v "bias" "_bias" := calm_storeWeight (by decide) _
  infer_instance

theorem convolution_turns (hop : v.item.op = some "Convolution") : Turns view v (convolution v) := by
  refine .step newLayer_does ?_
  refine .step (readSources_does rfl) ?_
  refine .calm fun _ => ?_
  refine .given fun given hgiven => ?_
  refine .given fun kernel hkernel => ?_
  refine .calm fun _ => ?_
  refine .given fun layout hlayout => ?_
  refine .step (setLayout_does layout) ?_
  refine .calm fun group => ?_
  refine .calm fun _ => ?_
  refine .read (inputChannels_uniform rfl) fun channels => ?_
  refine .step (identify_does rfl rfl rfl _) ?_
  have hset := layoutSet?_conv (.inl hop) hgiven hkernel hlayout
  refine .imp (Q := fun _ F' => F' = .ofLayer view v (some layout)) ?_ fun _ F' hF' =>
    hF' ▸ turned_ofLayer (by simp [hop]) hset.symm
  refine .calm fun filters => ?_
  refine .calm fun _ => ?_
  refine .calm fun bias => ?_
  have hstore : Calm (Site view v) v.name fun _ => storeKernel v layout kernel.length !bias := storeKernel_calm ..
  exact .last

theorem deconvolution_turns (hop : v.item.op = some "Deconvolution") : Turns view v (deconvolution v) := by
  refine .step newLayer_does ?_
  refine .step (identify_does rfl rfl rfl _) ?_
  refine .step (readSources_does rfl) ?_
  split
  on_goal 1 => refine .calm fun _ => ?_
  all_goals
    iterate 2 refine .calm fun _ => ?_
    refine .given fun given hgiven => ?_
    refine .given fun kernel hkernel => ?_
    refine .calm fun _ => ?_
    refine .given fun layout hlayout => ?_
    refine .step (setLayout_does layout) ?_
    refine .read (inputChannels_uniform rfl) fun channels => ?_
    have hset := layoutSet?_conv (.inr hop) hgiven hkernel hlayout
    exact Uniform.last.imp fun _ F' hF' => hF' ▸ turned_ofLayer (by simp [hop]) hset.symm

theorem withNumber_turns (hop : v.item.op = some "_mul_scalar" ∨ v.item.op = some "_minus_scalar") :
    Turns view v (withNumber op v) := by
  have hplain : v.item.op ≠ some "_copy" := by rcases hop with hop | hop <;> simp [hop]
  have hlayout : layoutSet? v = none := by rcases hop with hop | hop <;> simp [layoutSet?, hop]
  have hnumber : numberName? v = some (v.name ++ "_second") := by rw [numberName?, if_pos hop]
  refine .calm fun value => ?_
  refine .step newLayer_does ?_
  refine .step outputNameOf_self ?_
  refine .step (setName_does rfl _) ?_
  refine .calm fun _ => ?_
  refine .calm fun number => ?_
  refine Calm.bind (calm_write (k := none) (by simp) _) fun _ => ?_
  refine .step (carry_does rfl rfl _) ?_
  refine (addInput_does rfl _).imp fun _ F' hF' => ?_
  obtain ⟨-, rfl⟩ := hF'
  refine Or.inr ⟨hplain, rfl, hlayout.symm, by simp [layerNames, hnumber], 1,
    v.sources.map view.out ++ [v.name ++ "_second"], rfl, rfl, fun y hy => ?_⟩
  cases hsources : v.sources with
  | nil =>
    rw [hsources] at hy
    exact Or.inr (hnumber.trans hy)
  | cons m ms =>
    rw [hsources] at hy
    exact Or.inl ⟨m, .head _, (Option.some.inj hy).symm⟩

theorem parent_ok {w : Vertex Node} (hu : b.graph.vertices.find? name = some u) (hm : u.sources.head? = some m)
    (hw : b.graph.vertices.find? m = some w) : (parent name [0] : Convert (Vertex Node)).outcome b = (.ok w, b) := by
  have hfollow : b.graph.follow .up name [0] = (.ok (some w), b.graph) := by
    refine Prod.ext ?_ (Graph.follow_unmarked ..)
    rw [Graph.follow_first, Graph.vertex_eq_ok.mpr hu]
    simp [bind, Except.bind, Graph.Direction.next, hm, Graph.vertex_eq_ok.mpr hw, Except.map]
  refine bind_ok (a := some w) (bind_ok rfl ?_) rfl
  rw [hfollow]
  rfl

theorem copy_turns (hop : v.item.op = some "_copy") : Turns view v (copy v) := by
  cases hsources : v.sources with
  | nil =>
    intro s hs b hb a t h
    obtain ⟨w, t₁, hw, -⟩ := step_cases h
    obtain ⟨-, u, p, hu, hp, -⟩ := parent_cases hw
    obtain ⟨u', hu', -, hsame⟩ := find?_on_self hb s
    cases hu.symm.trans hu'
    simp [hsame, hsources] at hp
  | cons m rest =>
    refine .bind (Q := fun r F => F = {} ∧ ∀ c, Site view v c → (r c).outputName = view.out m) ?_
      fun r F hr => ?_
    · intro s hs b hb a t h
      refine ⟨fun c => ((s.on v.name c).graph.vertices.find? m).getD a, s, ⟨hs, fun c hc => ?_⟩, fun c hc => ?_⟩
      all_goals obtain ⟨w, hw, hname⟩ := find?_on_source hc s (m := m) (by simp [hsources])
      · simp [hw, hname]
      · obtain ⟨u, hu, -, hsame⟩ := find?_on_self hc s
        rw [parent_ok hu (by rw [hsame, hsources]; rfl) hw]
        simp [hw]
    · obtain ⟨rfl, hr⟩ := hr
      refine .imp (Q := fun _ F => F = { output := some (view.out m) }) ?_
        fun _ F hF => .inl ⟨hop, m, by simp [hsources], hF⟩
      have hrename : Does (Site view v) v.name {} (fun _ => rename v.name (view.out m)) (fun _ => ())
        { output := some (view.out m) } := rename_does rfl _
      exact (hrename.imp fun _ _ h => h.2).congr fun c hc => by rw [hr c hc]

theorem rule_turns {rule : Vertex Node → Convert Unit} (hop : v.item.op = some op)
    (h : rule? op = some rule) : Turns view v (rule v) := by
  unfold rule? at h
  split at h
  all_goals cases h
  all_goals first
    | with_reducible exact dense_turns hop
    | with_reducible exact convolution_turns hop
    | with_reducible exact activation_turns hop
    | with_reducible exact batchNorm_turns hop
    | with_reducible exact pooling_turns hop
    | with_reducible exact softmaxOutput_turns hop
    | with_reducible exact deconvolution_turns hop
    | with_reducible exact embedding_turns hop
    | with_reducible exact leakyRelu_turns hop
    | with_reducible exact reshape_turns hop
    | with_reducible exact copy_turns hop
    | with_reducible exact withNumber_turns (by simp [hop])
    -- the others carry the node over and set attributes then, an axis among them
    | exact turns_carry (by simp [hop]) (by simp [layoutSet?, hop]) fun _ => inferInstance
    | exact axis_turns (by simp [hop])
    | exact .throw

theorem convertNode_turns : Turns view v (convertNode v) := by
  refine .given fun op hop => ?_
  replace hop := orFault_eq_ok.mp hop
  split
  · rename_i rule h
    exact rule_turns hop h
  · rename_i h
    exact unknown_turns hop h

theorem convertNode_local (hb : Site view v b) (h : (convertNode v).outcome b = (.ok (), t)) :
    ∃ s : Share, Turned view.out v s.frame ∧
      ∀ c, Site view v c → (convertNode v).outcome c = (.ok (), s.on v.name c) := by
  have hstart (c : Base) : ({} : Share).on v.name c = c := by simp [Share.on]
  obtain ⟨r, s, hs, hall⟩ := convertNode_turns {} rfl b hb () t (by rw [hstart]; exact h)
  refine ⟨s, hs, fun c hc => ?_⟩
  rw [← hall c hc, hstart]

end

end NetBridge.Source.MxNet
