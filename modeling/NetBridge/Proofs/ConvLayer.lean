import NetBridge.Proofs.MxNetShares

/-!
# The layer of a convolution

Converting a convolution of a symbol leaves the layer `convLayer`, the kernel with its channels last, and the bias
(`convolution_outcome`).
-/

namespace NetBridge.Source.MxNet

open Run

variable {b : Builder Node State} {l : Layer} {v : Vertex Node}

/-! ## Steps -/

def lastSizes (layout o : Value) : Except Fault (List Value) :=
  if layoutIn layout lastLayouts then .ok o.elems else Axes.channelsLast o.elems

def recorded (layout o : Value) : Except Fault (List Int) := do
  (← lastSizes layout o).mapM fun d => int64Of (sizeOf d)

theorem outputSizes_outcome (o : Value) : (outputSizes o).outcome b = (lastSizes b.own.layout o, b) := by
  have h : (outputSizes o).outcome b =
      ((if layoutIn b.own.layout lastLayouts then pure o.elems else liftM (Axes.channelsLast o.elems) :
        Convert (List Value))).outcome b := rfl
  rw [h, lastSizes]
  split <;> rfl

variable {o : Value} {channels : Int} {dim : Nat} {t kernel u : Tensor}

theorem recordShape_draft {s : List Int} (hop : l.op ≠ "DataInput") (hrec : recorded b.own.layout o = .ok s) :
    (do let dims ← outputSizes o if (← layer b.layers.size).op = "DataInput" then
          (.int (-1) :: dims.drop 1).forM fun d => addSize b.layers.size "shape" (sizeOf d)
        let sizes ← dims.mapM fun d => int64Of (sizeOf d)
        addShape b.layers.size "_output_shapes" sizes : Convert Unit).outcome (draft b l) =
      (.ok (), draft b (l.put "_output_shapes" ((l.attr "_output_shapes").extendShapes [s]))) := by
  obtain ⟨dims, hdims, hs⟩ := bind_cases hrec
  have hsizes : (outputSizes o).outcome (draft b l) = (.ok dims, draft b l) := by
    rw [outputSizes_outcome, ← hdims]
    rfl
  refine bind_ok hsizes (bind_ok layer_draft ?_)
  rw [if_neg hop]
  exact bind_ok (mapM_lift_eq_ok _ hs) ((changeAttr_draft rfl))

theorem setShapes_draft {outs : List Value} {ss : List (List Int)} (hop : l.op ≠ "DataInput")
    (hfind : b.own.shapes.find? v.name = some (o :: outs)) (hrec : (o :: outs).mapM (recorded b.own.layout) = .ok ss) :
    (setShapes v b.layers.size).outcome (draft b l) =
      (.ok (), draft b (l.put "_output_shapes" ((l.attr "_output_shapes").extendShapes ss))) := by
  refine bind_eq_ok.mpr ⟨b.own, draft b l, rfl, ?_⟩
  rw [hfind]
  clear hfind
  -- every output adds its shape to those that the layer has
  induction outs generalizing o l ss with
  | nil =>
    obtain ⟨s, hs, ⟨⟩⟩ := bind_cases hrec
    exact bind_ok (recordShape_draft hop hs) rfl
  | cons o' outs ih =>
    rw [List.mapM_cons] at hrec
    obtain ⟨s, hs, hrec⟩ := bind_cases hrec
    obtain ⟨ss', hss', ⟨⟩⟩ := bind_cases hrec
    have hrest := ih (l := l.put "_output_shapes" ((l.attr "_output_shapes").extendShapes [s])) hop hss'
    rw [Layer.attr_put, Layer.put_put, Attr.extendShapes_extendShapes] at hrest
    exact bind_ok (recordShape_draft hop hs) hrest

def named (g : Graph Node) (name : String) : Graph Node :=
  match ownName? name with
  | some new => g.modify name fun v => { v with outputName := new }
  | none => g

theorem identify_draft (op : String) {u : Vertex Node} (hself : b.graph.vertices.find? v.name = some u)
    (hname : u.outputName = v.name) :
    (identify v b.layers.size op).outcome (draft b l) =
      (.ok (), draft { b with graph := named b.graph v.name
                              own := { b.own with byName := b.own.byName.insert (stripped v.name) b.layers.size } }
        { l with name := stripped v.name, op := op }) := by
  -- the name and the operator are set alike, whether or not the vertex has been renamed
  have hend : ∀ b' : Builder Node State, b'.layers = b.layers → b'.own = b.own →
      (do setName b.layers.size (stripped v.name)
          setOp b.layers.size op
          modifyOwn fun s => { s with byName := s.byName.insert (stripped v.name) b.layers.size } :
        Convert Unit).outcome (draft b' l) =
      (.ok (), draft { b' with own := { b.own with byName := b.own.byName.insert (stripped v.name) b.layers.size } }
        { l with name := stripped v.name, op := op }) := by
    intro b' hl ho
    rw [← hl, ← ho]
    exact bind_ok (edit_draft _) (bind_ok (edit_draft _) rfl)
  unfold identify
  by_cases hlow : Text.startsWith v.name "_"
  · have hown : ownName? v.name = some (Text.drop 1 v.name) := if_pos hlow
    have hstrip : stripped v.name = Text.drop 1 v.name := by simp [stripped, hown]
    rw [if_pos hlow]
    let b' : Builder Node State := { b with graph := named b.graph v.name }
    have hfind : b'.graph.vertices.find? v.name = some { u with outputName := stripped v.name } := by
      simp [b', named, hown, Graph.modify, hself, hstrip]
    refine bind_eq_ok.mpr ⟨(), draft b' l, ?_, bind_ok (outputNameOf_draft hfind) ?_⟩
    · show (Except.ok (), _) = _
      simp [draft, b', named, hown]
    · exact hend b' rfl rfl
  · have hown : ownName? v.name = none := if_neg hlow
    have hstrip : stripped v.name = v.name := by simp [stripped, hown]
    rw [if_neg hlow]
    refine bind_ok (outputNameOf_draft hself) ?_
    rw [hname]
    have hb : named b.graph v.name = b.graph := by simp [named, hown]
    have := hend b rfl rfl
    rw [hstrip] at this ⊢
    rw [hb]
    exact this

theorem inputChannels_draft {x : String} {p : Nat} {dims : List Int}
    (hin : l.inputs.head? = some x) (hp : b.own.byName.find? x = some p) (hdims : firstShape b p = some dims)
    (hlast : dims.getLast? = some channels) :
    (inputChannels b.layers.size).outcome (draft b l) = (.ok channels, draft b l) := by
  have hlt := firstShape_lt hdims
  have hreads : ReadsFirst (draft b l) b.layers.size p := ⟨x, by simpa [draft] using hin, hp⟩
  have hshape : firstShape (draft b l) p = some dims := by
    rw [← hdims]
    simp [firstShape, draft, Array.getElem?_push, Nat.ne_of_lt hlt]
  refine bind_ok (firstInput_outcome hreads) (bind_ok (outputDims_outcome hshape) ?_)
  exact lift_ok (by rw [hlast]; rfl)

theorem addFramed_draft (name : String) {ns : Except Fault (List Int)} {xs : List Int} (hns : ns = .ok xs)
    (hfits : ∀ n ∈ xs, fitsInt64 n) :
    (addFramed b.layers.size name ns).outcome (draft b l) =
      (.ok (), draft b (l.put name ((l.attr name).extendInts ([1] ++ xs ++ [1])))) := by
  have hone (l : Layer) : (addInts b.layers.size name [.int 1]).outcome (draft b l) =
      (.ok (), draft b (l.put name ((l.attr name).extendInts [1]))) := by
    have hfit : ∀ n ∈ [1], fitsInt64 n := by decide
    exact (addInts_draft name hfit :)
  refine bind_ok (hone l) (lift_bind_ok hns ?_)
  refine bind_ok (addInts_draft name hfits) ((hone _).trans ?_)
  simp only [Layer.attr_put, Layer.put_put, Attr.extendInts_extendInts]

/-! ## Settings -/

structure ConvSettings where
  kernel : List Int
  stride : List Int
  dilate : List Int
  pad : List Int
  filters : Int
  groups : Int
  bias : Bool
  layout : String

def padSetting (v : Vertex Node) (dim : Nat) : Except Fault (List Int) := do
  if hasSetting v "pad" then wholesOf (← setting v "pad") else return List.replicate dim 0

structure Gives (v : Vertex Node) (c : ConvSettings) : Prop where
  kernel : (do wholesOf (← setting v "kernel")) = .ok c.kernel
  stride : perAxis v "stride" c.kernel.length = .ok c.stride
  dilate : perAxis v "dilate" c.kernel.length = .ok c.dilate
  pad : padSetting v c.kernel.length = .ok c.pad
  filters : whole v "num_filter" = .ok c.filters
  groups : whole v "num_group" (.text "1") = .ok c.groups
  bias : flag v "no_bias" "False" = .ok (!c.bias)
  layout : layoutOf v c.kernel.length = .ok (.text c.layout)
  channelsFirst : c.layout ∈ firstLayouts
  fits : ∀ n ∈ [c.filters, c.groups] ++ c.kernel ++ c.stride ++ c.dilate ++ c.pad, fitsInt64 n

theorem addPads_draft {pad : List Int} (h : padSetting v dim = .ok pad) (hfits : ∀ n ∈ pad, fitsInt64 n) :
    (addPads v b.layers.size (2 * (dim + 2))).outcome (draft b l) = (.ok (), draft b (l.put "pads"
      ((l.attr "pads").extendInts (([0] ++ pad ++ [0]) ++ ([0] ++ pad ++ [0]))))) := by
  have hall : ∀ n ∈ ([0] ++ pad ++ [0]) ++ ([0] ++ pad ++ [0]), fitsInt64 n := by
    have hzero : fitsInt64 0 := by decide
    intro n hn
    grind
  unfold addPads
  unfold padSetting at h
  by_cases hset : hasSetting v "pad" = true
  · rw [if_pos hset] at h ⊢
    obtain ⟨s, hs, h⟩ := bind_cases h
    refine lift_bind_ok hs (lift_bind_ok h ?_)
    exact addInts_draft "pads" hall
  · -- without the setting all pads are zeros, as many as the pads of a setting would be
    rw [if_neg hset] at h ⊢
    cases h
    have hzeros : List.replicate (2 * (dim + 2)) (Value.int 0) =
        (([0] ++ List.replicate dim 0 ++ [0]) ++ ([0] ++ List.replicate dim 0 ++ [0]) : List Int).map Value.int := by
      have half : ([0] ++ List.replicate dim 0 ++ [0] : List Int) = List.replicate (dim + 2) 0 := by
        rw [List.singleton_append, ← List.replicate_succ, ← List.replicate_succ']
      rw [half, List.replicate_append_replicate, List.map_replicate]
      congr 1
      omega
    rw [hzeros]
    exact addInts_draft "pads" hall

/-! ## Arrays -/

structure Stored (b : Builder Node State) (v : Vertex Node) (takesBias : Bool) (t u : Tensor) : Prop where
  loaded : b.loaded = true
  arrays : ∃ arrays, b.own.arrays = some arrays ∧ arrays.find? (v.name ++ "_weight") = some t ∧
    (takesBias = true → arrays.find? (v.name ++ "_bias") = some u)

def withKernel (w : Weights) (name : String) (takesBias : Bool) (kernel u : Tensor) : Weights :=
  let w := putWeight w (name, "weights") (.array kernel)
  if takesBias then putWeight w (name, "bias") (.array u) else w

theorem stored_outcome {suffix : String} {arrays : Table Tensor} (h : b.own.arrays = some arrays)
    (ht : arrays.find? (v.name ++ suffix) = some t) : (stored v suffix).outcome b = (.ok t, b) := by
  refine bind_ok rfl (lift_bind_eq_ok.mpr ⟨arrays, by rw [h]; rfl, ?_⟩)
  exact lift_ok (by rw [ht]; rfl)

theorem storeKernel_outcome {layout : String} {takesBias : Bool}
    (hs : Stored b v takesBias t u) (hlayout : layout ∈ firstLayouts) (ht : kernelLast dim t = .ok kernel) :
    (storeKernel v (.text layout) dim takesBias).outcome b =
      (.ok (), { b with weights := withKernel b.weights v.name takesBias kernel u }) := by
  obtain ⟨arrays, harrays, hweight, hbias⟩ := hs.arrays
  have hfirst : layoutIn (.text layout) lastLayouts = false := by
    have : ∀ s ∈ firstLayouts, layoutIn (.text s) lastLayouts = false := by decide
    exact this layout hlayout
  refine bind_eq_ok.mpr ⟨true, b, ?_, ?_⟩
  · rw [← hs.loaded]
    rfl
  · refine bind_ok (stored_outcome harrays hweight) ?_
    rw [hfirst]
    refine lift_bind_ok ht (bind_ok rfl ?_)
    cases takesBias with
    | false => rfl
    | true => exact bind_ok (stored_outcome harrays (hbias rfl)) rfl

/-! ## The layer -/

def convLayer (c : ConvSettings) (channels : Int) (name : String) (inputs : List String)
    (shapes : List (List Int)) : Layer where
  name := name
  op := if c.groups = channels then "DepthwiseConv" else "Conv"
  inputs := inputs
  attrs := ⟨[("_output_shapes", .list { shapes := shapes }),
    ("kernel_shape", .list { ints := c.kernel ++ [channels, c.filters] }), ("group", .int c.groups),
    ("use_bias", .flag c.bias), ("strides", .list { ints := [1] ++ c.stride ++ [1] }),
    ("dilations", .list { ints := [1] ++ c.dilate ++ [1] }), ("data_format", .text (Text.encodeUtf8 c.layout)),
    ("pads", .list { ints := ([0] ++ c.pad ++ [0]) ++ ([0] ++ c.pad ++ [0]) })]⟩

structure Fed (b : Builder Node State) (v : Vertex Node) (channels : Int) (shapes : List (List Int)) : Prop where
  self : ∃ u, b.graph.vertices.find? v.name = some u ∧ u.outputName = v.name
  sources : ∀ p ∈ v.sources, p ∈ b.graph.vertices.keys
  image : ∃ x p dims, v.sources.head? = some x ∧ b.own.byName.find? (b.graph.outputName x) = some p ∧
    firstShape b p = some dims ∧ dims.getLast? = some channels
  fits : fitsInt64 channels
  shapes : ∃ o outs, b.own.shapes.find? v.name = some (o :: outs) ∧
    (o :: outs).mapM (recorded b.own.layout) = .ok shapes

theorem convolution_outcome {c : ConvSettings} {shapes : List (List Int)}
    (hc : Gives v c) (hb : Fed b v channels shapes) (hs : Stored b v c.bias t u)
    (ht : kernelLast c.kernel.length t = .ok kernel) : (convolution v).outcome b = (.ok (), { b with
      graph := named b.graph v.name
      layers := b.layers.push (convLayer c channels (stripped v.name) (v.sources.map b.graph.outputName) shapes)
      weights := withKernel b.weights v.name c.bias kernel u
      own := { b.own with layout := .text c.layout
                          byName := b.own.byName.insert (stripped v.name) b.layers.size } }) := by
  obtain ⟨w, hself, hname⟩ := hb.self
  obtain ⟨x, p, dims, hx, hp, hdims, hlast⟩ := hb.image
  obtain ⟨o, outs, houts, hrec⟩ := hb.shapes
  obtain ⟨k, hk, hkernel⟩ := bind_cases hc.kernel
  have hfits := hc.fits
  refine bind_ok newLayer_draft ?_
  refine bind_ok (readSources_draft hb.sources) ?_
  refine bind_ok (setShapes_draft (by simp) houts hrec) ?_
  refine lift_bind_ok hk (lift_bind_ok hkernel ?_)
  refine bind_ok (addInts_draft "kernel_shape" (fun n hn => hfits n (by simp [hn]))) ?_
  refine lift_bind_ok hc.layout ?_
  -- the layout in force and, with the name, the layers by name change on the way
  let b₁ : Builder Node State := { b with own := { b.own with layout := .text c.layout } }
  refine bind_eq_ok.mpr ⟨(), draft b₁ _, rfl, lift_bind_eq_ok.mpr ⟨c.groups, hc.groups, ?_⟩⟩
  let head : Layer := { inputs := v.sources.map b.graph.outputName
                        attrs := ⟨[("_output_shapes", .list { shapes := shapes }),
                          ("kernel_shape", .list { ints := c.kernel }), ("group", .int c.groups)]⟩ }
  refine bind_eq_ok.mpr ⟨(), draft b₁ head, setInt_draft "group" (hfits _ (by simp)), ?_⟩
  refine bind_eq_ok.mpr ⟨channels, _, inputChannels_draft (by simp [head, hx]) hp hdims hlast, ?_⟩
  refine bind_eq_ok.mpr ⟨(), _, identify_draft (b := b₁) _ hself hname, ?_⟩
  let b₂ : Builder Node State := { b₁ with
    graph := named b.graph v.name
    own := { b₁.own with byName := b.own.byName.insert (stripped v.name) b.layers.size } }
  refine lift_bind_ok hc.filters ?_
  have hchannels : ∀ n ∈ [channels, c.filters], fitsInt64 n := by simp [hb.fits, hfits c.filters]
  have hends (l : Layer) := addInts_draft (b := b₂) (l := l) "kernel_shape" hchannels
  refine bind_ok (hends _) (lift_bind_ok hc.bias ?_)
  rw [Bool.not_not]
  refine bind_ok (setFlag_draft "use_bias" c.bias) ?_
  refine bind_ok (addFramed_draft "strides" hc.stride fun n hn => hfits n (by simp [hn])) ?_
  refine bind_ok (addFramed_draft "dilations" hc.dilate fun n hn => hfits n (by simp [hn])) ?_
  refine bind_ok (assign_draft (b := b₂) rfl) ?_
  refine bind_ok (addPads_draft (b := b₂) hc.pad fun n hn => hfits n (by simp [hn])) ?_
  exact storeKernel_outcome ⟨hs.loaded, hs.arrays⟩ hc.channelsFirst ht

end NetBridge.Source.MxNet
