import NetBridge.Proofs.BlockOutputs
import NetBridge.Proofs.TableView
import NetBridge.Source.Darknet

/-!
# Shapes that blocks record

Normalisations and activations are recorded with the shape of what they read, with one exception
(`follower_shape_iff`). Extents of convolutions and poolings are fractions, which cannot be stored
(`whole_shapes_iff`).
-/

namespace NetBridge.Config

section
variable {q : Plan} {i : Nat} {b : Block} {l : Laid}

variable {n act conv norm : Node} {c : Node → Prop} {linear normed : Bool} {shape : Value}

theorem find?_extend (hnames : (l.nodes.map (·.name)).Nodup) (hn : n ∈ l.nodes) :
    (q.extend i l).nodes.find? n.name = some n := by
  have hwrites : (q.extend i l).nodes = q.nodes.insertAll (l.nodes.map fun n => (n.name, n)) := by
    rw [Plan.extend, Table.insertAll, List.foldl_map]
  have hfind : Table.findIn n.name (l.nodes.map fun n => (n.name, n)).reverse = some n := by
    refine (Table.findIn_eq_some_iff ?_).mpr (by simpa using hn)
    rw [List.map_reverse, List.map_map]
    exact List.nodup_reverse.mpr hnames
  rw [hwrites, Table.find?_insertAll, hfind]
  rfl

/-! ## Normalisations and activations -/

/-- The activation of the block is given another shape than the convolution that it reads. -/
def Block.Reverts (q : Plan) (b : Block) (conv : Node) : Prop :=
  b.type = "convolutional" ∧ ¬b.isNormed ∧
    ∃ source shape, q.source = .ok source ∧ q.shapeOf source = .ok shape ∧ shape ≠ conv.outputShape

/-- Every normalisation and activation of a block reads one layer of the block, and `c` says when the two have one
shape. -/
def Follows (q : Plan) (i : Nat) (c : Node → Prop) (l : Laid) : Prop :=
  ∀ n ∈ l.nodes, n.type ∈ followers → ∃ m ∈ l.nodes, n.inputs = [m.name] ∧
    (q.extend i l).nodes.find? n.name = some n ∧ (q.extend i l).nodes.find? m.name = some m ∧
    (n.outputShape = m.outputShape ↔ c m)

theorem follows_of_types (h : ∀ n ∈ l.nodes, n.type ∉ followers) : Follows q i c l :=
  fun n hn hfollows => absurd hfollows (h n hn)

theorem follows_single {type : String} (h : n.type = type) (htype : type ∉ followers) :
    Follows q i c (single n) := follows_of_types (by simpa [single, h] using htype)

theorem Activates.follows (h : Activates i b l n act) (hc : ∀ m, c m) : Follows q i c l := by
  rcases h.laid with ⟨-, rfl⟩ | ⟨-, rfl⟩
  · exact follows_single rfl h.type
  · have hnames : ([n, act].map (·.name)).Nodup := by simpa using h.name
    intro m hm hfollows
    rcases List.mem_cons.mp hm with rfl | hm
    · exact absurd hfollows h.type
    · obtain rfl := List.mem_singleton.mp hm
      exact ⟨n, .head _, h.inputs, find?_extend hnames (.tail _ (.head _)), find?_extend hnames (.head _),
        iff_of_true h.shape (hc n)⟩

theorem Convolves.find? (h : Convolves q i b l normed linear shape conv norm act) (hn : n ∈ l.nodes) :
    (q.extend i l).nodes.find? n.name = some n := by
  obtain ⟨hconv, hnorm, hact⟩ := h.names
  have hnames : ([conv, norm, act].map (·.name)).Nodup := by
    have hfirst : conv.name ≠ norm.name ∧ conv.name ≠ act.name := by
      rw [hconv, hnorm, hact]
      exact ⟨b.layerName_ne_followerName i (by decide), b.layerName_ne_followerName i (by decide)⟩
    have hsecond : norm.name ≠ act.name := by
      rw [hnorm, hact]
      exact b.followerName_ne i (by decide)
    simp [hfirst, hsecond]
  refine find?_extend (hnames.sublist (.map _ ?_)) hn
  rw [h.nodes]
  cases normed <;> cases linear <;> simp

theorem Convolves.follows (h : Convolves q i b l normed linear shape conv norm act) (hb : b.type = "convolutional") :
    Follows q i (fun m => ¬b.Reverts q m) l := by
  have hmem : conv ∈ l.nodes := h.nodes ▸ .head _
  obtain ⟨source, hsource, hshape⟩ := h.source
  intro n hn hfollows
  have hkind : n ≠ conv := by
    rintro rfl
    rw [h.type] at hfollows
    exact absurd hfollows (by decide)
  cases normed with
  | true =>
    have hstays (m : Node) : ¬b.Reverts q m := fun hr => hr.2.1 (h.isNormed.mp rfl)
    have hmem' : norm ∈ l.nodes := h.nodes ▸ .tail _ (.head _)
    have hn' : n = norm ∨ n = act := by
      rw [h.nodes] at hn
      cases linear <;> simp_all
    rcases hn' with rfl | rfl
    · exact ⟨conv, hmem, h.inputs.1, h.find? hn, h.find? hmem, iff_of_true h.shapes.1 (hstays conv)⟩
    · exact ⟨norm, hmem', h.inputs.2, h.find? hn, h.find? hmem',
        iff_of_true (h.shapes.2.trans h.shapes.1.symm) (hstays norm)⟩
  | false =>
    obtain rfl : n = act := by
      rw [h.nodes] at hn
      cases linear <;> simp_all
    refine ⟨conv, hmem, h.inputs.2, h.find? hn, h.find? hmem, ?_⟩
    rw [h.shapes.2]
    constructor
    · rintro heq ⟨-, -, source', shape', hsource', hshape', hne⟩
      cases hsource.symm.trans hsource'
      cases hshape.symm.trans hshape'
      exact hne heq
    · intro hstays
      by_contra hne
      exact hstays ⟨hb, fun hn => absurd (h.isNormed.mpr hn) (by decide), source, shape, hsource, hshape, hne⟩

theorem input_gives : Gives (input b) fun l => ∃ n dims, l = single n ∧ n.type = "DataInput" ∧
    n.outputShape = .ints dims :=
  .bind fun _ _ => .bind fun _ _ => .pure ⟨_, _, rfl, rfl, rfl⟩

theorem route_types : Gives (route q i b) fun l => ∀ n ∈ l.nodes, n.type = "Concat" := by
  refine .bind fun s hs => ?_
  split
  · exact .bind fun _ _ => .bind fun _ _ => .pure (by simp)
  · exact .bind fun _ _ => .bind fun _ _ => .bind fun _ _ => .bind fun _ _ => .bind fun _ _ => .bind fun _ _ =>
      .bind fun _ _ => .bind fun _ _ => .bind fun _ _ => .pure (by simp [single])
  · exact .pure (by simp)

theorem detection_types : Gives (detection q i b) fun l => ∀ n ∈ l.nodes, n.type = "yolo" :=
  .bind fun _ _ => .bind fun _ _ => .bind fun _ _ => .bind fun _ _ => .pure (by simp)

section
variable {c : Node → Prop} {l : Laid}

theorem input_follows (hl : input b = .ok l) : Follows q i c l := by
  obtain ⟨n, _, rfl, htype, -⟩ := input_gives l hl
  exact follows_single htype (by decide)

theorem maxPooling_follows (hl : maxPooling q i b = .ok l) : Follows q i c l := by
  obtain ⟨n, _, _, _, rfl, htype, -⟩ := maxPooling_gives l hl
  exact follows_single htype (by decide)

theorem meanPooling_follows (hl : meanPooling q i b = .ok l) : Follows q i c l := by
  obtain ⟨n, rfl, htype⟩ := meanPooling_gives l hl
  exact follows_single htype (by decide)

theorem softmax_follows (hl : softmax q i b = .ok l) : Follows q i c l := by
  obtain ⟨n, rfl, htype⟩ := softmax_gives l hl
  exact follows_single htype (by decide)

theorem upsample_follows (hl : upsample q i b = .ok l) : Follows q i c l := by
  obtain ⟨n, rfl, htype⟩ := upsample_gives l hl
  exact follows_single htype (by decide)

theorem route_follows (hl : route q i b = .ok l) : Follows q i c l :=
  follows_of_types fun n hn => by simp [route_types l hl n hn, followers]

theorem detection_follows (hl : detection q i b = .ok l) : Follows q i c l :=
  follows_of_types fun n hn => by simp [detection_types l hl n hn, followers]

theorem convolution_follows (hb : b.type = "convolutional") (hl : convolution q i b = .ok l) :
    Follows q i (fun m => ¬b.Reverts q m) l := by
  obtain ⟨_, _, _, _, _, _, h⟩ := convolution_gives l hl
  exact h.follows hb

theorem shortcut_follows (hb : b.type = "shortcut") (hl : shortcut q i b = .ok l) :
    Follows q i (fun m => ¬b.Reverts q m) l := by
  obtain ⟨_, _, h⟩ := shortcut_gives l hl
  exact h.follows fun m h => absurd (hb.symm.trans h.1) (by decide)

theorem connected_follows (hb : b.type = "connected") (hl : connected q i b = .ok l) :
    Follows q i (fun m => ¬b.Reverts q m) l := by
  obtain ⟨_, _, h⟩ := connected_gives l hl
  exact h.follows fun m h => absurd (hb.symm.trans h.1) (by decide)

end

theorem layOut_follows : Gives (layOut q i b) (Follows q i fun m => ¬b.Reverts q m) := by
  intro l hl
  unfold layOut at hl
  split at hl
  all_goals rename_i hb
  all_goals first
    | exact input_follows hl
    | exact convolution_follows hb hl
    | exact maxPooling_follows hl
    | exact meanPooling_follows hl
    | exact route_follows hl
    | exact shortcut_follows hb hl
    | exact connected_follows hb hl
    | exact softmax_follows hl
    | exact detection_follows hl
    | exact upsample_follows hl
    | cases hl
  exact follows_of_types (by simp)

end

/-- A normalisation or activation has the shape of the layer that it reads, but for the activation of a convolution
without a normalisation: that one has the shape of what the convolution reads. -/
theorem follower_shape_iff {bs : List Block} {p : Plan} (h : planOf bs = .ok p) {i : Nat} {b : Block}
    (hb : bs[i]? = some b) : ∃ q l, planOf (bs.take i) = .ok q ∧ layOut q i b = .ok l ∧
      ∀ n ∈ l.nodes, n.type ∈ followers → ∃ m ∈ l.nodes, n.inputs = [m.name] ∧
        (q.extend i l).nodes.find? n.name = some n ∧ (q.extend i l).nodes.find? m.name = some m ∧
        (n.outputShape = m.outputShape ↔ ¬b.Reverts q m) := by
  obtain ⟨q, l, -, hq, hl, -⟩ := planOf_at h hb
  exact ⟨q, l, hq, hl, layOut_follows l hl⟩

def convolutions (normed : String) : List Block :=
  let conv : Block := ⟨"convolutional", .ofList ([("batch_normalize", normed), ("filters", "2"), ("size", "3"),
    ("pad", "1"), ("stride", "1"), ("activation", "leaky")].map fun e => (e.1, .given e.2))⟩
  [⟨"net", .ofList [("height", .given "4"), ("width", .given "4"), ("channels", .given "3")]⟩, conv, conv]

theorem follower_shape_iff_normed : ∃ p q l, planOf (convolutions "1") = .ok p ∧
    layOut q 1 ((convolutions "1").getD 1 default) = .ok l ∧ l.nodes.map (·.type) = ["Conv", "BatchNorm", "leakyReLU"] ∧
      ∀ n ∈ l.nodes, n.type ∈ followers → ∃ m ∈ l.nodes, n.inputs = [m.name] ∧ n.outputShape = m.outputShape := by
  obtain ⟨p, hp⟩ : ∃ p, planOf (convolutions "1") = .ok p := ⟨_, rfl⟩
  obtain ⟨q, l, hq, hl, hall⟩ := follower_shape_iff hp (i := 1) rfl
  obtain rfl : _ = q := Except.ok.inj hq
  obtain rfl : _ = l := Except.ok.inj hl
  refine ⟨p, _, _, hp, hl, rfl, fun n hn htype => ?_⟩
  obtain ⟨m, hm, hinputs, -, -, hiff⟩ := hall n hn htype
  exact ⟨m, hm, hinputs, hiff.mpr fun hr => hr.2.1 rfl⟩

theorem activation_reverts : ∃ p n m, planOf (convolutions "0") = .ok p ∧ p.nodes.find? "layer1-act" = some n ∧
    p.nodes.find? "layer1-conv" = some m ∧ n.inputs = ["layer1-conv"] ∧ n.outputShape = .ints [-1, 4, 4, 3] ∧
    ∃ x y, m.outputShape = .list [.int (-1), .float x, .float y, .int 2] :=
  ⟨_, _, _, rfl, rfl, rfl, rfl, rfl, _, _, rfl⟩

/-! ## Extents -/

theorem padded_gives (extent : Scalar) (size stride : Int) :
    Gives (padded extent size stride) fun z => ∃ x, z = .real x := by
  refine .bind fun z hz => .pure ?_
  obtain ⟨x, rfl⟩ := quotient_gives _ _ z hz
  exact ⟨_, rfl⟩

/-- A convolution works out the extents of its output from those of what it reads. -/
def Pads (q : Plan) (b : Block) (x y : Float) : Prop :=
  ∃ source shape w h k s, q.source = .ok source ∧ q.shapeOf source = .ok shape ∧ sizeAt shape 1 = .ok w ∧
    sizeAt shape 2 = .ok h ∧ b.whole "size" = .ok k ∧ b.whole "stride" = .ok s ∧
    padded w k s = .ok (.real x) ∧ padded h k s = .ok (.real y)

theorem layOut_fractional {q : Plan} {i : Nat} {b : Block} (hb : b.type = "convolutional" ∨ b.type = "maxpool") :
    Gives (layOut q i b) fun l => ∃ n x y channels, l.nodes.head? = some n ∧
      (q.extend i l).nodes.find? n.name = some n ∧ n.outputShape = .list [.int (-1), .float x, .float y, channels] ∧
      (b.type = "convolutional" → Pads q b x y) := by
  intro l hl
  rcases hb with hb | hb <;> simp only [layOut, hb] at hl
  · obtain ⟨_, _, shape, conv, _, _, h⟩ := convolution_gives l hl
    obtain ⟨source, hsource, hshape⟩ := h.source
    obtain ⟨w, v, k, s, x, y, filters, hw, hv, hk, hs, hx, hy, hout⟩ := h.extents
    obtain ⟨x, rfl⟩ := padded_gives _ _ _ _ hx
    obtain ⟨y, rfl⟩ := padded_gives _ _ _ _ hy
    refine ⟨conv, x, y, .int filters, by rw [h.nodes]; rfl, h.find? (h.nodes ▸ .head _), hout, fun _ => ?_⟩
    exact ⟨source, shape, w, v, k, s, hsource, hshape, hw, hv, hk, hs, hx, hy⟩
  · obtain ⟨n, x, y, c, rfl, -, hout⟩ := maxPooling_gives l hl
    exact ⟨n, x, y, c, rfl, find?_extend (by simp [single]) (.head _), hout, fun h =>
      absurd (hb.symm.trans h) (by decide)⟩

/-- Behind the network itself every extent is a fraction, and no shape with one can be stored: all shapes are whole
exactly if there are no other blocks. -/
theorem whole_shapes_iff {net : Block} {rest : List Block} {p : Plan} (h : planOf (net :: rest) = .ok p)
    (hnet : net.type = "net") (hrest : ∀ b ∈ rest, b.type = "convolutional" ∨ b.type = "maxpool") :
    ((∀ name n, p.nodes.find? name = some n → ∃ dims, n.outputShape = .ints dims) ↔ rest = []) ∧
    ∀ i b, rest[i]? = some b → ∃ q l n x y channels, planOf (net :: rest.take i) = .ok q ∧
      layOut q (i + 1) b = .ok l ∧ l.nodes.head? = some n ∧
      n.outputShape = .list [.int (-1), .float x, .float y, channels] ∧
      Source.Darknet.storedShape n.outputShape = .error Fault.kind ∧ (b.type = "convolutional" → Pads q b x y) := by
  refine ⟨⟨fun hwhole => ?_, ?_⟩, fun i b hb => ?_⟩
  · -- the last block's own layer cannot be overwritten
    by_contra hne
    obtain ⟨before, b, rfl⟩ : ∃ before b, rest = before ++ [b] := ⟨_, _, (List.dropLast_append_getLast hne).symm⟩
    obtain ⟨q, l, hq, hl, hend⟩ := planFrom_split h (j := before.length + 1) (b := b) (by simp)
    obtain ⟨n, x, y, c, -, hfind, hout, -⟩ := layOut_fractional (hrest b (by simp)) l hl
    rw [List.drop_of_length_le (by simp)] at hend
    cases hend
    obtain ⟨dims, hdims⟩ := hwhole _ _ hfind
    rw [hout] at hdims
    rcases dims with _ | ⟨_, _ | ⟨_, _⟩⟩ <;> simp [Value.ints] at hdims
  · rintro rfl name n hn
    obtain ⟨l, hl, ⟨⟩⟩ := bind_cases h
    simp only [layOut, hnet] at hl
    obtain ⟨m, dims, rfl, -, hdims⟩ := input_gives l hl
    have hfind : (if m.name = name then some m else none) = some n := hn
    split at hfind
    · cases hfind
      exact ⟨dims, hdims⟩
    · cases hfind
  · obtain ⟨q, l, -, hq, hl, -⟩ := planOf_at h (i := i + 1) hb
    obtain ⟨n, x, y, c, hhead, -, hout, hpads⟩ := layOut_fractional (hrest b (List.mem_of_getElem? hb)) l hl
    exact ⟨q, l, n, x, y, c, hq, hl, hhead, hout, by rw [hout]; rfl, hpads⟩

theorem whole_shapes_iff_pair : ∃ p, planOf (convolutions "1") = .ok p ∧
    ¬∀ name n, p.nodes.find? name = some n → ∃ dims, n.outputShape = .ints dims := by
  obtain ⟨p, hp⟩ : ∃ p, planOf (convolutions "1") = .ok p := ⟨_, rfl⟩
  refine ⟨p, hp, fun hwhole => ?_⟩
  cases (whole_shapes_iff hp rfl (by decide)).1.mp hwhole

theorem extents_fractional : ∃ p n, planOf (convolutions "1") = .ok p ∧ p.nodes.find? "layer1-conv" = some n ∧
    ∃ x y, n.outputShape = .list [.int (-1), .float x, .float y, .int 2] ∧ x = 5 ∧ y = 5 :=
  ⟨_, _, rfl, rfl, _, _, rfl, by decide +kernel, by decide +kernel⟩

end NetBridge.Config
