import NetBridge.Config.Layers
import NetBridge.Proofs.NumberText
import NetBridge.Proofs.RunSteps

/-!
# The layer that holds the output of a block

`Plan.outputOf` gives the layer that stands for a block, which should be the last layer that the block contributed. It
is, but for two slips (`Misses`). A route of one number is another name for a layer, one of two numbers a
concatenation; a route with more contributes nothing.
-/

namespace NetBridge.Config

open List

/-! ## What a block contributes -/

def Gives {α : Type} (x : Except Fault α) (P : α → Prop) : Prop := ∀ a, x = .ok a → P a

section
variable {α β : Type} {P : α → Prop} {Q : β → Prop} {x : Except Fault α} {f : α → Except Fault β}

theorem Gives.bind (h : ∀ a, x = .ok a → Gives (f a) Q) : Gives (x >>= f) Q := by
  intro b hb
  obtain ⟨a, ha, hf⟩ := bind_cases hb
  exact h a ha b hf

theorem Gives.pure {a : α} (h : P a) : Gives (pure a) P := by
  rintro _ ⟨⟩
  exact h

end

namespace Block

def isLinear (b : Block) : Prop := b.get "activation" = .ok (.given "linear")

def isNormed (b : Block) : Prop := b.get "batch_normalize" = .ok (.given "1")

def Misses (p : Plan) (i : Nat) (b : Block) : Prop :=
  b.type = "convolutional" ∧ b.isLinear ∧ ¬b.isNormed ∧ p.norm ≠ some (b.layerName i "conv") ∨
    b.type ∈ ["shortcut", "connected"] ∧ ¬b.isLinear

variable {follower : String}

theorem layerName_ne_followerName (b : Block) (i : Nat) {kind : String} (h : kind.length ≠ follower.length) :
    b.layerName i kind ≠ b.followerName i follower := by
  intro he
  have hlen := congrArg String.length he
  unfold layerName followerName at hlen
  split at hlen
  · simp [show "-".length = 1 from rfl] at hlen
    omega
  · simp [String.length_append] at hlen
    exact h hlen

theorem followerName_ne (b : Block) (i : Nat) {other : String} (h : follower.length ≠ other.length) :
    b.followerName i follower ≠ b.followerName i other := by
  intro he
  have hlen := congrArg String.length he
  unfold followerName at hlen
  split at hlen <;> exact h (by simpa [String.length_append] using hlen)

end Block

def Ends (c : Prop) (l : Laid) : Prop := ∃ last, l.nodes.getLast? = some last ∧ (l.output = some last.name ↔ c)

theorem ends_single (n : Node) {c : Prop} (hc : c) : Ends c (single n) := ⟨n, rfl, by simp [single, hc]⟩

def followers : List String := ["BatchNorm", "ReLU", "leakyReLU"]

variable {p : Plan} {i : Nat}

section
variable {b : Block} {l : Laid}

theorem quotient_gives (x y : Scalar) : Gives (x.quotient y) fun z => ∃ f, z = .real f := by
  intro z hz
  unfold Scalar.quotient at hz
  split at hz
  · cases hz
  · cases hz
    exact ⟨_, rfl⟩

/-- The extent that a convolution works out, half of its window being the padding on each side. -/
def padded (extent : Scalar) (size stride : Int) : Except Fault Scalar :=
  Listing.slide extent (.real (Float.ofInt size / Float.ofInt 2)) (.int size) (.int stride)

/-- What a convolution contributes: itself, its normalisation if it has one, and its activation unless it is linear. An
activation right behind the convolution is given the shape of what the convolution reads. -/
structure Convolves (p : Plan) (i : Nat) (b : Block) (l : Laid) (normed linear : Bool) (shape : Value)
    (conv norm act : Node) : Prop where
  isNormed : normed = true ↔ b.isNormed
  isLinear : linear = true ↔ b.isLinear
  source : ∃ source, p.source = .ok source ∧ p.shapeOf source = .ok shape
  nodes : l.nodes = conv :: ((if normed then [norm] else []) ++ if linear then [] else [act])
  output : l.output = if linear then (if normed then some norm.name else p.norm) else some act.name
  names : conv.name = b.layerName i "conv" ∧ norm.name = b.followerName i "bn" ∧ act.name = b.followerName i "act"
  type : conv.type = "Conv"
  inputs : norm.inputs = [conv.name] ∧ act.inputs = [if normed then norm.name else conv.name]
  shapes : norm.outputShape = conv.outputShape ∧ act.outputShape = if normed then conv.outputShape else shape
  extents : ∃ w h k s x y filters, sizeAt shape 1 = .ok w ∧ sizeAt shape 2 = .ok h ∧ b.whole "size" = .ok k ∧
    b.whole "stride" = .ok s ∧ padded w k s = .ok x ∧ padded h k s = .ok y ∧
    conv.outputShape = .list [.int (-1), .ofScalar x, .ofScalar y, .int filters]

theorem convolution_gives : Gives (convolution p i b) fun l =>
    ∃ normed linear shape conv norm act, Convolves p i b l normed linear shape conv norm act := by
  refine .bind fun source hsource => .bind fun shape hshape => .bind fun w hw => .bind fun h hh => .bind fun _ _ =>
    .bind fun filters _ => .bind fun k hk => .bind fun _ _ => .bind fun padded _ => .bind fun s hs =>
    .bind fun normed hnormed => ?_
  obtain ⟨setting, hsetting, ⟨⟩⟩ := bind_cases hnormed
  have hnorm : decide (setting = .given "1") = true ↔ b.isNormed := by simp [Block.isNormed, hsetting]
  generalize decide (setting = .given "1") = normed at hnorm
  cases padded with
  | false => exact .bind fun _ h => nomatch h
  | true =>
    refine .bind fun _ hpad => .bind fun x hx => .bind fun y hy => ?_
    extract_lets outShape conv norm main mainName lastNorm actShape
    refine .bind fun activation hact => ?_
    cases hpad
    have hlin : decide (activation = .given "linear") = true ↔ b.isLinear := by simp [Block.isLinear, hact]
    by_cases hl : activation = .given "linear"
    · rw [if_pos hl]
      rw [decide_eq_true hl] at hlin
      refine .bind fun output hout => .pure ⟨normed, true, shape, conv, norm, ⟨_, "ReLU", _, ⟨[shapeProp _]⟩⟩,
        hnorm, hlin,
        ⟨source, hsource, hshape⟩, ?_, ?_, ⟨rfl, rfl, rfl⟩, rfl, ⟨rfl, rfl⟩, ⟨rfl, rfl⟩,
        w, h, k, s, x, y, filters, hw, hh, hk, hs, hx, hy, rfl⟩
      · cases normed <;> rfl
      · rw [orFault_eq_ok] at hout
        cases normed <;> exact hout.symm
    · rw [if_neg hl]
      rw [decide_eq_false hl] at hlin
      have hshapeOf : Table.findD ⟨if activation = .given "leaky" then [leak, actShape] else [actShape]⟩ "_output_shape"
          Value.none = actShape.2 := by split <;> rfl
      refine .pure ⟨normed, false, shape, conv, norm, ⟨b.followerName i "act", _, [mainName], ⟨_⟩⟩, hnorm, hlin,
        ⟨source, hsource, hshape⟩, ?_, rfl, ⟨rfl, rfl, rfl⟩, rfl, ⟨rfl, rfl⟩, ⟨rfl, hshapeOf⟩,
        w, h, k, s, x, y, filters, hw, hh, hk, hs, hx, hy, rfl⟩
      cases normed <;> rfl

variable {act n : Node}

theorem Convolves.ends {normed linear : Bool} {shape : Value} {conv norm : Node}
    (h : Convolves p i b l normed linear shape conv norm act) :
    Ends (¬(b.isLinear ∧ ¬b.isNormed ∧ p.norm ≠ some (b.layerName i "conv"))) l := by
  rw [Ends, h.nodes, h.output, ← h.isNormed, ← h.isLinear, ← h.names.1]
  cases normed <;> cases linear <;> simp

theorem maxPooling_gives : Gives (maxPooling p i b) fun l => ∃ n x y c, l = single n ∧ n.type = "Pooling" ∧
    n.outputShape = .list [.int (-1), .float x, .float y, c] := by
  refine .bind fun _ _ => .bind fun _ _ => .bind fun _ _ => ?_
  dsimp only
  split
  case' h_1 => refine .bind fun _ _ => ?_
  all_goals
    refine .bind fun padded _ => ?_
    split <;> exact .bind fun _ _ => .bind fun _ _ => .bind fun _ _ => .bind fun _ _ => .bind fun _ hx =>
      .bind fun _ hy => .bind fun c _ => .pure (by
        obtain ⟨x, rfl⟩ := quotient_gives _ _ _ hx
        obtain ⟨y, rfl⟩ := quotient_gives _ _ _ hy
        exact ⟨_, x, y, c, rfl, rfl, rfl⟩)

theorem meanPooling_gives : Gives (meanPooling p i b) fun l => ∃ n, l = single n ∧ n.type = "Pooling" :=
  .bind fun _ _ => .bind fun _ _ => .bind fun _ _ => .pure ⟨_, rfl, rfl⟩

theorem softmax_gives : Gives (softmax p i b) fun l => ∃ n, l = single n ∧ n.type = "Softmax" :=
  .bind fun _ _ => .bind fun _ _ => .pure ⟨_, rfl, rfl⟩

theorem upsample_gives : Gives (upsample p i b) fun l => ∃ n, l = single n ∧ n.type = "upsample" :=
  .bind fun _ _ => .bind fun _ _ => .bind fun _ _ => .bind fun _ _ => .bind fun _ _ => .bind fun _ _ =>
    .bind fun _ _ => .pure ⟨_, rfl, rfl⟩

/-- What a sum or a connected layer contributes: itself, and its activation unless it is linear. -/
structure Activates (i : Nat) (b : Block) (l : Laid) (n act : Node) : Prop where
  laid : b.isLinear ∧ l = single n ∨
    ¬b.isLinear ∧ l = { nodes := [n, act], output := some n.name, feed := some act.name }
  name : n.name ≠ act.name
  type : n.type ∉ followers
  inputs : act.inputs = [n.name]
  shape : act.outputShape = n.outputShape

theorem activated_gives (hname : n.name ≠ b.followerName i "act") (htype : n.type ∉ followers)
    (props : Setting → List (String × Value)) (hprops : ∀ a, Table.findD ⟨props a⟩
    "_output_shape" .none = n.outputShape) :
    Gives (do
      let activation ← b.get "activation"
      if activation = .given "linear" then return single n
      let act := rectifier b i n.name (props activation)
      return { nodes := [n, act], output := some n.name, feed := some act.name })
    fun l => ∃ n act, Activates i b l n act := by
  refine .bind fun activation hact => ?_
  have hlin : b.isLinear ↔ activation = .given "linear" := by simp [Block.isLinear, hact]
  by_cases hl : activation = .given "linear"
  · rw [if_pos hl]
    exact .pure ⟨n, rectifier b i n.name (props activation), .inl ⟨hlin.mpr hl, rfl⟩, hname, htype, rfl, hprops _⟩
  · rw [if_neg hl]
    exact .pure ⟨n, _, .inr ⟨hl ∘ hlin.mp, rfl⟩, hname, htype, rfl, hprops activation⟩

theorem shortcut_gives : Gives (shortcut p i b) fun l => ∃ n act, Activates i b l n act :=
  .bind fun _ _ => .bind fun _ _ => .bind fun _ _ => .bind fun _ _ =>
    activated_gives (b.layerName_ne_followerName i (by decide)) (by simp [followers]) _ fun _ => rfl

theorem connected_gives : Gives (connected p i b) fun l => ∃ n act, Activates i b l n act :=
  .bind fun _ _ => .bind fun _ _ => .bind fun _ _ => .bind fun _ _ =>
    activated_gives (b.layerName_ne_followerName i (by decide)) (by simp [followers]) _ fun _ => by split <;> rfl

theorem Activates.ends (h : Activates i b l n act) : Ends b.isLinear l := by
  rcases h.laid with ⟨hl, rfl⟩ | ⟨hl, rfl⟩
  · exact ends_single n hl
  · exact ⟨act, rfl, iff_of_false (fun he => h.name (Option.some.inj he)) hl⟩

def referable : List String :=
  ["convolutional", "maxpool", "avgpool", "shortcut", "connected", "softmax", "upsample"]

theorem layOut_ends (hb : b.type ∈ referable) : Gives (layOut p i b) (Ends ¬b.Misses p i) := by
  simp only [referable, mem_cons, not_mem_nil, or_false] at hb
  intro l hl
  rcases hb with hb | hb | hb | hb | hb | hb | hb <;> simp only [layOut, hb] at hl
  · obtain ⟨_, _, _, _, _, _, h⟩ := convolution_gives l hl
    simpa [Block.Misses, hb] using h.ends
  · obtain ⟨n, _, _, _, rfl, -⟩ := maxPooling_gives l hl
    exact ends_single n (by simp [Block.Misses, hb])
  · obtain ⟨n, rfl, -⟩ := meanPooling_gives l hl
    exact ends_single n (by simp [Block.Misses, hb])
  · obtain ⟨_, _, h⟩ := shortcut_gives l hl
    simpa [Block.Misses, hb] using h.ends
  · obtain ⟨_, _, h⟩ := connected_gives l hl
    simpa [Block.Misses, hb] using h.ends
  · obtain ⟨n, rfl, -⟩ := softmax_gives l hl
    exact ends_single n (by simp [Block.Misses, hb])
  · obtain ⟨n, rfl, -⟩ := upsample_gives l hl
    exact ends_single n (by simp [Block.Misses, hb])

end

/-! ## Numbers of blocks -/

section
variable {q : Plan} {bs : List Block}

variable {b : Block}

theorem planFrom_split {j : Nat} (h : planFrom p i bs = .ok q) (hb : bs[j]? = some b) :
    ∃ r l, planFrom p i (bs.take j) = .ok r ∧ layOut r (i + j) b = .ok l ∧
      planFrom (r.extend (i + j) l) (i + j + 1) (bs.drop (j + 1)) = .ok q := by
  induction bs generalizing p i j with
  | nil => cases hb
  | cons c bs ih =>
    obtain ⟨l, hl, hrest⟩ := bind_cases h
    cases j with
    | zero =>
      cases hb
      exact ⟨p, l, rfl, hl, hrest⟩
    | succ j =>
      obtain ⟨r, l', hr, hl', hq⟩ := ih hrest hb
      rw [show i + 1 + j = i + (j + 1) by omega] at hl' hq
      exact ⟨r, l', (ok_bind hl).trans hr, hl', hq⟩

theorem planFrom_outputs (h : planFrom p i bs = .ok q) :
    ∃ es, q.outputs = p.outputs ++ es ∧ ∀ e ∈ es, i ≤ e.1 ∧ e.1 < i + bs.length := by
  induction bs generalizing p i with
  | nil =>
    cases h
    exact ⟨[], by simp, by simp⟩
  | cons b bs ih =>
    obtain ⟨l, -, hrest⟩ := bind_cases h
    obtain ⟨es, hes, hnum⟩ := ih hrest
    refine ⟨(l.output.map fun n => (i, n)).toList ++ es, by rw [hes, Plan.extend, append_assoc], fun e he => ?_⟩
    rcases mem_append.mp he with he | he
    · obtain ⟨n, -, rfl⟩ := by simpa using he
      simp
    · have := hnum e he
      simp only [length_cons]
      omega

theorem outputOf_extend {l : Laid} {es : List (Nat × String)} (hbefore : ∀ e ∈ p.outputs, e.1 < i)
    (hbehind : ∀ e ∈ es, i < e.1) (h : q.outputs = (p.extend i l).outputs ++ es) :
    q.outputOf i = orFault Fault.key l.output := by
  have hfirst : p.outputs.find? (fun e => (e.1 : Int) == i) = none := by
    refine find?_eq_none.mpr fun e he heq => ?_
    have := hbefore e he
    simp at heq
    omega
  have hlast : es.find? (fun e => (e.1 : Int) == i) = none := by
    refine find?_eq_none.mpr fun e he heq => ?_
    have := hbehind e he
    simp at heq
    omega
  rw [Plan.outputOf, h, Plan.extend, find?_append, find?_append, hfirst, hlast]
  cases l.output <;> simp

/-- The plan at a block: what came before it, and what later blocks find under its number. -/
theorem planOf_at (h : planOf bs = .ok p) (hb : bs[i]? = some b) :
    ∃ q l es, planOf (bs.take i) = .ok q ∧ layOut q i b = .ok l ∧ (∀ e ∈ q.outputs, e.1 < i) ∧
      p.outputs = (q.extend i l).outputs ++ es ∧ p.outputOf i = orFault Fault.key l.output := by
  obtain ⟨q, l, hq, hl, hrest⟩ := planFrom_split h hb
  rw [Nat.zero_add] at hl hrest
  obtain ⟨before, hbefore, hsmall⟩ := planFrom_outputs hq
  obtain ⟨behind, hbehind, hlarge⟩ := planFrom_outputs hrest
  have hlt : ∀ e ∈ q.outputs, e.1 < i := fun e he => by
    have := hsmall e (by simpa [hbefore] using he)
    simp at this
    omega
  exact ⟨q, l, behind, hq, hl, hlt, hbehind, outputOf_extend hlt (fun e he => (hlarge e he).1) hbehind⟩

end

/-- Later blocks find the last layer of a block under its number, unless the block is one that they miss. -/
theorem output_is_last_iff {bs : List Block} {p : Plan} (h : planOf bs = .ok p) {i : Nat} {b : Block}
    (hb : bs[i]? = some b) (hkind : b.type ∈ referable) :
    ∃ q l last, planOf (bs.take i) = .ok q ∧ layOut q i b = .ok l ∧ l.nodes.getLast? = some last ∧
      (p.outputOf i = .ok last.name ↔ ¬b.Misses q i) := by
  obtain ⟨q, l, -, hq, hl, -, -, hout⟩ := planOf_at h hb
  obtain ⟨last, hlast, hiff⟩ := layOut_ends hkind l hl
  refine ⟨q, l, last, hq, hl, hlast, ?_⟩
  rw [hout, orFault_eq_ok, hiff]

def detector : List Block :=
  let conv (normed activation : String) : Block := ⟨"convolutional", .ofList (([("batch_normalize", normed),
    ("filters", "2"), ("size", "1"), ("pad", "1"), ("stride", "1"), ("activation", activation)]).map fun e =>
      (e.1, .given e.2))⟩
  [⟨"net", .ofList [("height", .given "2"), ("width", .given "2"), ("channels", .given "3")]⟩, conv "1" "leaky",
    conv "0" "linear", ⟨"connected", .ofList [("output", .given "4"), ("activation", .given "relu")]⟩]

theorem output_is_last_iff_detector : ∃ p q l last, planOf detector = .ok p ∧ planOf (detector.take 2) = .ok q ∧
    layOut q 2 (detector.getD 2 default) = .ok l ∧ l.nodes.getLast? = some last ∧ p.outputOf 2 ≠ .ok last.name := by
  obtain ⟨p, hp⟩ : ∃ p, planOf detector = .ok p := ⟨_, rfl⟩
  obtain ⟨q, l, last, hq, hl, hlast, hiff⟩ := output_is_last_iff hp (i := 2) rfl (by decide)
  refine ⟨p, q, l, last, hp, hq, hl, hlast, fun h => hiff.mp h (.inl ⟨rfl, rfl, ?_, ?_⟩)⟩
  · intro h
    have hsetting : Setting.given "0" = .given "1" := Except.ok.inj h
    exact absurd hsetting (by decide)
  · obtain rfl : _ = q := Except.ok.inj hq
    decide

theorem later_blocks_miss_convolution : ∃ p, planOf detector = .ok p ∧ p.nodes.contains "layer2-conv" = true ∧
    p.outputOf 2 = .ok "layer1-bn" ∧ p.outputOf 3 = .ok "layer3-fc" ∧ p.nodes.contains "layer3-act" = true :=
  ⟨_, rfl, rfl, rfl, rfl, rfl⟩

/-! ## Routes -/

/-- The block that a number of a route stands for, when the given block is the first behind the network. -/
def referred (first i : Nat) (n : Int) : Int := if n < 0 then i + n else first + n

def firstBehindNet (bs : List Block) : Nat := bs.findIdx (·.type == "net") + 1

def Plan.channelsOf (p : Plan) (name : String) : Except Fault Scalar := do sizeAt (← p.shapeOf name) (-1)

/-- A layer that reads the given ones, in order, and has as many channels as they have together. -/
structure Concatenates (p : Plan) (names : List String) (node : Node) : Prop where
  type : node.type = "Concat"
  inputs : node.inputs = names
  channels : ∃ c cs, names.mapM p.channelsOf = .ok (c :: cs) ∧
    sizeAt node.outputShape (-1) = .ok (cs.foldl (· + ·) c)

/-- What the numbers of the route at block `i` ask for, by the plan before the route (`q`), the route's contribution and
the plan of all blocks (`p`). -/
def Resolves (first : Nat) (q : Plan) (i : Nat) (l : Laid) (p : Plan) (ns : List Int) : Prop :=
  ∃ names, ns.mapM (fun n => p.outputOf (referred first i n)) = .ok names ∧
    ((∃ name, names = [name] ∧ l = { output := some name, feed := some name } ∧ p.outputOf i = .ok name) ∨
      2 ≤ names.length ∧ ∃ node, Concatenates q names node ∧ l = single node ∧ p.outputOf i = .ok node.name)

section
variable {q : Plan}

variable {k : Int} {name : String}

theorem outputOf_append {es : List (Nat × String)} (h : q.outputs = p.outputs ++ es)
    (hk : p.outputOf k = .ok name) : q.outputOf k = .ok name := by
  rw [Plan.outputOf, orFault_eq_ok] at hk ⊢
  rw [h, find?_append, Option.map_or, hk, Option.some_or]

theorem lt_of_outputOf (hbefore : ∀ e ∈ p.outputs, e.1 < i) (hk : p.outputOf k = .ok name) : k < i := by
  rw [Plan.outputOf, orFault_eq_ok, Option.map_eq_some_iff] at hk
  obtain ⟨e, he, -⟩ := hk
  have hnumber : e.1 = k := by simpa using find?_some he
  have := hbefore e (mem_of_find?_eq_some he)
  omega

theorem routed_eq (hbefore : ∀ e ∈ p.outputs, e.1 < i) {n : Int}
    (h : p.outputOf (routed i n) = .ok name) : routed i n = referred 1 i n := by
  have := lt_of_outputOf hbefore h
  unfold routed referred at *
  split at this <;> split <;> omega

theorem sizeAt_last (vs : List Value) (c : Scalar) : sizeAt (.list (vs ++ [.ofScalar c])) (-1) = .ok c := by
  have hplace : Value.place (vs ++ [Value.ofScalar c]).length (-1) = some vs.length := by
    rw [Value.place, length_append]
    grind
  have hindex : (Value.list (vs ++ [.ofScalar c])).index (-1) = .ok (.ofScalar c) := by
    change Value.nth (vs ++ [Value.ofScalar c]) (-1) = _
    rw [Value.nth, hplace, Option.bind_some, getElem?_concat_length]
  rw [sizeAt, hindex]
  cases c <;> rfl

/-- What a route contributes, by the count of its numbers. -/
theorem route_gives {b : Block} {ns : List Int} (hns : b.wholes "layers" = .ok ns) : Gives (route q i b) fun l =>
    (∃ n name, ns = [n] ∧ q.outputOf (i + n) = .ok name ∧ l = { output := some name, feed := some name }) ∨
      (∃ m n s t node, ns = [m, n] ∧ q.outputOf (routed i m) = .ok s ∧ q.outputOf (routed i n) = .ok t ∧
        Concatenates q [s, t] node ∧ l = single node) ∨
      2 < ns.length ∧ l = {} := by
  refine .bind fun s hs => ?_
  obtain ⟨s', hs', hns⟩ := bind_cases hns
  cases hs.symm.trans hs'
  rw [mapM_eq_ok_iff] at hns
  have hne : Text.split ',' s.text ≠ [] := mt map_eq_nil_iff.mp (Text.splitChars_ne_nil _ _)
  generalize Text.split ',' s.text = texts at hns hne
  rcases hns with _ | ⟨hm, _ | ⟨hn, _ | ⟨-, hrest⟩⟩⟩
  · exact absurd rfl hne
  · refine .bind fun n hn => .bind fun name hname => .pure (.inl ⟨n, name, ?_, hname, rfl⟩)
    rw [Except.ok.inj (hm.symm.trans hn)]
  · refine .bind fun m hm' => .bind fun s hs => .bind fun shape hshape => .bind fun n hn' => .bind fun t ht =>
      .bind fun shape' hshape' => .bind fun c hc => .bind fun c' hc' => .bind fun out hout => .pure ?_
    obtain ⟨vs, hvs, ⟨⟩⟩ := bind_cases hout
    cases hm.symm.trans hm'
    cases hn.symm.trans hn'
    refine .inr (.inl ⟨_, _, s, t, _, rfl, hs, ht, ⟨rfl, rfl, c, [c'], ?_, ?_⟩, rfl⟩)
    · rw [mapM_eq_ok_iff]
      exact .cons ((ok_bind hshape).trans hc) (.cons ((ok_bind hshape').trans hc') .nil)
    · exact sizeAt_last _ _
  · exact .pure (.inr (.inr ⟨by simp, rfl⟩))

end

/-- A route gives what its numbers ask for exactly if it has at most two. They count from the block behind the first
one, which is the block behind `[net]` only if `[net]` comes first. -/
theorem route_resolves_iff {bs : List Block} {p : Plan} (h : planOf bs = .ok p) {i : Nat} {b : Block}
    (hb : bs[i]? = some b) (hroute : b.type = "route") {ns : List Int} (hns : b.wholes "layers" = .ok ns) :
    ∃ q l, planOf (bs.take i) = .ok q ∧ layOut q i b = .ok l ∧ (Resolves 1 q i l p ns ↔ ns.length ≤ 2) ∧
      (firstBehindNet bs = 1 ↔ bs.head?.map (·.type) = some "net") := by
  obtain ⟨q, l, behind, hq, hl, hlt, hbehind, hout⟩ := planOf_at h hb
  have hfirst : firstBehindNet bs = 1 ↔ bs.head?.map (·.type) = some "net" := by
    cases bs with
    | nil => cases hb
    | cons b₀ rest =>
      rw [firstBehindNet, findIdx_cons]
      by_cases htype : b₀.type = "net"
      · simp [htype]
      · simp [htype, beq_false_of_ne htype]
  refine ⟨q, l, hq, hl, ?_, hfirst⟩
  have hkeep {k : Int} {name : String} (hk : q.outputOf k = .ok name) : p.outputOf k = .ok name :=
    outputOf_append (hbehind.trans (append_assoc ..)) hk
  simp only [layOut, hroute] at hl
  rcases route_gives hns l hl with ⟨n, name, rfl, hname, rfl⟩ | ⟨m, n, s, t, node, rfl, hs, ht, hnode, rfl⟩ |
    ⟨hmany, rfl⟩
  · have hn : referred 1 i n = i + n := if_pos (by have := lt_of_outputOf hlt hname; omega)
    refine iff_of_true ⟨[name], ?_, .inl ⟨name, rfl, rfl, hout⟩⟩ (by simp)
    rw [mapM_eq_ok_iff]
    exact .cons (hn ▸ hkeep hname) .nil
  · refine iff_of_true ⟨[s, t], ?_, .inr ⟨Nat.le_refl 2, node, hnode, rfl, hout⟩⟩ (by simp)
    rw [mapM_eq_ok_iff]
    exact .cons (routed_eq hlt hs ▸ hkeep hs) (.cons (routed_eq hlt ht ▸ hkeep ht) .nil)
  · refine iff_of_false ?_ (Nat.not_le.mpr hmany)
    rintro ⟨names, -, ⟨name, -, hl, -⟩ | ⟨-, node, -, hl, -⟩⟩
    · cases hl
    · cases hl

def branches (numbers : String) : List Block :=
  [⟨"net", .ofList [("height", .given "4"), ("width", .given "4"), ("channels", .given "3")]⟩, ⟨"avgpool", ∅⟩,
    ⟨"avgpool", ∅⟩, ⟨"route", .ofList [("layers", .given numbers)]⟩]

theorem route_resolves_iff_branches : ∃ p q l, planOf (branches "-2,1") = .ok p ∧
    layOut q 3 ((branches "-2,1").getD 3 default) = .ok l ∧ Resolves 1 q 3 l p [-2, 1] := by
  obtain ⟨p, hp⟩ : ∃ p, planOf (branches "-2,1") = .ok p := ⟨_, rfl⟩
  obtain ⟨q, l, -, hl, hiff, -⟩ := route_resolves_iff hp (i := 3) rfl rfl rfl
  exact ⟨p, q, l, hp, hl, hiff.mpr (by decide)⟩

theorem third_number_passed_over : ∃ p, planOf (branches "-1,-2,-3") = .ok p ∧
    p.nodes.keys = ["dk_Input", "layer1-avgpool", "layer2-avgpool"] ∧ p.outputOf 3 = .error Fault.key :=
  ⟨_, rfl, rfl, rfl⟩

end NetBridge.Config
