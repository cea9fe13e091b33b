import NetBridge.Proofs.MxNetLayers
import NetBridge.Proofs.TensorFlowOperands
import NetBridge.Proofs.WindowSides

/-!
# Rules that pad

A rule for a window adds a layer, writes its pads once, and never touches them again. So the finished layer is padded
by that one step (`Pads`), and what holds of layers so padded holds of all that the rule adds.
-/

namespace NetBridge.Source

open Run List

/-! ## Pads that stay -/

variable {α σ β γ ι : Type} {b b' : Builder α σ} {k n : Nat}

abbrev edgeNames : List String := ["pads", "auto_pads", "border"]

def edgeAttrs (l : Layer) : List Attr := edgeNames.map l.attr

/-- Layers may come, but what is written about the edges of a layer stays. -/
structure PadsStay (b b' : Builder α σ) : Prop where
  size : b.layers.size ≤ b'.layers.size
  same : ∀ k, edgeAttrs (layerAt b' k) = edgeAttrs (layerAt b k)

theorem PadsStay.trans {b'' : Builder α σ} (h : PadsStay b b') (h' : PadsStay b' b'') : PadsStay b b'' :=
  ⟨h.size.trans h'.size, fun k => (h'.same k).trans (h.same k)⟩

theorem PadsStay.of_layers (h : b'.layers = b.layers) : PadsStay b b' :=
  ⟨h ▸ Nat.le_refl _, fun k => by rw [layerAt, layerAt, h]⟩

section
variable {m : String}

instance : Edits (PadsStay (α := α) (σ := σ)) k edgeAttrs where
  edit b₀ b f h hf := by
    refine h.trans ⟨by simp, fun i => ?_⟩
    rw [layerAt_edit]
    split
    · rename_i hi
      rw [← hi.1, hf]
    · rfl
  touch l name := by simp [edgeAttrs, attr_touch]

theorem unseen_edgeAttrs {name : String} (h : name ∉ edgeNames) : Unseen edgeAttrs name := by
  refine ⟨fun l a => map_congr_left fun n hn => ?_⟩
  have hne : name ≠ n := fun he => h (he ▸ hn)
  exact (Table.findD_insert ..).trans (if_neg hne)

instance : Unseen edgeAttrs "_output_shapes" := unseen_edgeAttrs (by decide)

instance : Unseen edgeAttrs "dtype" := unseen_edgeAttrs (by decide)

instance : Unseen edgeAttrs "kernel_shape" := unseen_edgeAttrs (by decide)

instance : Unseen edgeAttrs "use_bias" := unseen_edgeAttrs (by decide)

instance : Unseen edgeAttrs "strides" := unseen_edgeAttrs (by decide)

instance : Unseen edgeAttrs "dilations" := unseen_edgeAttrs (by decide)

instance : Unseen edgeAttrs "group" := unseen_edgeAttrs (by decide)

instance : Unseen edgeAttrs "shape" := unseen_edgeAttrs (by decide)

instance : Unseen edgeAttrs "global_pooling" := unseen_edgeAttrs (by decide)

instance : Unseen edgeAttrs "paddings" := unseen_edgeAttrs (by decide)

theorem stays_padless {vs : List (String × Value)} (hvs : ∀ w ∈ vs, w.1 ∉ edgeNames) :
    Stays PadsStay (assign k vs : Build α σ Unit) := stays_assign fun w hw => unseen_edgeAttrs (hvs w hw)

instance : Stays PadsStay (setName k m : Build α σ Unit) := stays_edit fun _ => rfl

instance : Stays PadsStay (setOp k m : Build α σ Unit) := stays_edit fun _ => rfl

instance : Stays PadsStay (addInput k m : Build α σ Unit) := stays_edit fun _ => rfl

instance : Stays PadsStay (newLayer : Build α σ Nat) := by
  have : Stays PadsStay (modify fun b => { b with layers := b.layers.push {} } : Build α σ Unit) := by
    refine ⟨fun _ => .modify fun b hb => hb.trans ⟨by simp, fun k => ?_⟩⟩
    congr 1
    simp only [layerAt, Array.getD_eq_getD_getElem?, Array.getElem?_push]
    grind
  unfold newLayer
  infer_instance

theorem stays_apart {f : Builder α σ → Builder α σ} (hf : ∀ b, (f b).layers = b.layers) :
    Stays PadsStay (modify f : Build α σ Unit) := ⟨fun _ => .modify fun b hb => hb.trans (.of_layers (hf b))⟩

instance : Stays PadsStay (say m : Build α σ Unit) := stays_apart fun _ => rfl

instance (f : σ → σ) : Stays PadsStay (modifyOwn f : Build α σ Unit) := stays_apart fun _ => rfl

instance (key : String) (v : Value) : Stays PadsStay (setWeight m key v : Build α σ Unit) := stays_apart fun _ => rfl

instance (f : Vertex α → Vertex α) : Stays PadsStay (modifyVertex m f : Build α σ Unit) := stays_apart fun _ => rfl

instance (new : String) : Stays PadsStay (rename m new : Build α σ Unit) := stays_apart fun _ => rfl

instance : Stays PadsStay (cover m : Build α σ Unit) := stays_apart fun _ => rfl

instance (d : Graph.Direction) (path : List Int) (mark : Bool) :
    Stays PadsStay (follow d m path mark : Build α σ (Option (Vertex α))) := by
  refine ⟨fun _ b hb a b' h => hb.trans ?_⟩
  obtain ⟨-, rfl⟩ := follow_eq_ok h
  exact .of_layers rfl

end

/-! ## Layers from bare to padded -/

/-- The layer is there and nothing is written about its edges yet. -/
structure Fresh (k : Nat) (b : Builder α σ) : Prop where
  inside : k < b.layers.size
  unset : ∀ name ∈ edgeNames, (layerAt b k).attr name = .unset

theorem Fresh.bare (h : Fresh k b) : (layerAt b k).Bare := ⟨h.unset _ (by decide), h.unset _ (by decide)⟩

/-- The pads of the layer are those of one of some steps. -/
def Padded (x : ι → Nat → Build α σ Unit) (k : Nat) (b : Builder α σ) : Prop :=
  ∃ i b₁, PaddedBy (x i) b₁ (layerAt b k)

/-- A rule whose new layer has the pads of one of some steps. -/
def Pads (rule : Build α σ Unit) (x : ι → Nat → Build α σ Unit) : Prop :=
  ∀ n, Triple (·.layers.size = n) rule fun _ => Padded x n

def Begins (c : Build α σ Nat) : Prop := ∀ n, Triple (·.layers.size = n) c fun k b => k = n ∧ Fresh n b

variable {x : ι → Nat → Build α σ Unit} {y : Build α σ β} {f : β → Build α σ γ} {Q : γ → Builder α σ → Prop}

theorem freshly [hy : Stays PadsStay y] (hf : ∀ a, Triple (Fresh k) (f a) Q) : Triple (Fresh k) (y >>= f) Q := by
  have hkeeps : Keeps (Fresh k) y := by
    intro b hb a b' h
    have hsame := hy.keeps b b (.of_layers rfl) a b' h
    refine ⟨Nat.lt_of_lt_of_le hb.inside hsame.size, fun name hname => ?_⟩
    exact (map_inj_left.mp (hsame.same k) name hname).trans (hb.unset name hname)
  exact hkeeps.bind hf

theorem keeps_padded [hy : Stays PadsStay y] : Keeps (Padded x k) y := by
  rintro b ⟨i, b₀, j, b₁, hj, hbare, hx, hpads⟩ a b' h
  have hsame := map_inj_left.mp ((hy.keeps b b (.of_layers rfl) a b' h).same k)
  refine ⟨i, b₀, j, b₁, hj, hbare, hx, fun name hname => (hsame name ?_).trans (hpads name hname)⟩
  exact mem_append_left ["border"] hname

theorem padded {step : Build α σ Unit} {f : Unit → Build α σ γ} (i : ι) (hstep : x i k = step)
    (hf : ∀ a, Stays PadsStay (f a)) : Triple (Fresh k) (step >>= f) fun _ => Padded x k := by
  refine Triple.bind (Q := fun _ => Padded x k) (fun b hb _ b' h => ?_) fun _ => keeps_padded
  exact ⟨i, b, k, b', hb.inside, hb.bare, hstep ▸ h, fun _ _ => rfl⟩

theorem Pads.gives {rule : Build α σ Unit} {p : List Int → Prop} (hrule : Pads rule x)
    (hx : ∀ i b, GivesPads (x i) b p) (h : rule.outcome b = (.ok (), b')) :
    ∃ ps, (layerAt b' b.layers.size).Pads ps ∧ ps ≠ [] ∧ p ps := by
  obtain ⟨i, b₁, hpadded⟩ := hrule _ b rfl () b' h
  exact hpadded.pads (hx i b₁)

theorem begins_newLayer : Begins (newLayer : Build α σ Nat) := by
  rintro _ b rfl k b' h
  cases h
  exact ⟨rfl, by simp, fun name _ => by simp [layerAt]; rfl⟩

theorem Begins.then {c : Build α σ Nat} {f : Nat → Build α σ γ} (hc : Begins c) (hf : Triple (Fresh n) (f n) Q) :
    Triple (·.layers.size = n) (c >>= f) Q := by
  refine (hc n).bind fun k b hb => ?_
  obtain ⟨rfl, hb⟩ := hb
  exact hf b hb

theorem begins_carry {named : Nat → Build α σ Unit} [∀ k, Stays PadsStay (named k)] {v : Vertex α} {start : Nat}
    {stop : Option Nat} : Begins (do
      let k ← newLayer
      named k
      readSources v k start stop
      return k : Build α σ Nat) :=
  fun _ => begins_newLayer.then (freshly fun _ => freshly fun _ => .pure fun _ h => ⟨rfl, h⟩)

/-! ## Rules of the source formats -/

namespace CoreMl

variable {v : Vertex Item} {d : Node}

instance : Stays PadsStay (outputSizes d) := by unfold outputSizes; infer_instance

instance (op : String) : Stays PadsStay (identify v d k op) := by unfold identify; infer_instance

instance (c : Convolution) : Stays PadsStay (storeKernel v c) := by
  unfold storeKernel
  split
  · infer_instance
  · refine .step fun t => .step fun _ => ?_
    split <;> infer_instance

theorem convolution_pads (c : Convolution) : Pads (convolution v d c) fun _ : Unit => (setPads · c.pads false) := by
  refine fun n => begins_newLayer.then (freshly fun _ => freshly fun _ => padded () rfl fun _ => ?_)
  exact .bind inferInstance fun _ => stays_padless (by simp)

theorem pooling_pads (p : Pooling) : Pads (pooling v d p) fun _ : Unit => (setPads · p.pads true) :=
  fun n => Begins.then begins_carry (padded () rfl fun _ => stays_padless (by split <;> split <;> simp))

end CoreMl

namespace Keras

variable {v : Vertex Node}

instance : Stays PadsStay (setShape v k) := by unfold setShape; infer_instance

instance (op : String) : Stays PadsStay (identify v k op) := by unfold identify; infer_instance

instance : Stays PadsStay (storeFilters v) := by unfold storeFilters; infer_instance

instance : Stays PadsStay (storeKernel v) := by unfold storeKernel; infer_instance

instance : Stays PadsStay (beginConvolution v k) := by unfold beginConvolution; infer_instance

instance : Stays PadsStay (splitActivation v) := by
  refine .step fun f => ?_
  split <;> infer_instance

theorem convolution_pads (dim : Nat) :
    Pads (convolution dim v) fun w : Value × Value => (setPads v · w.1 w.2) := by
  refine fun n => begins_newLayer.then (freshly fun _ => freshly fun _ => freshly fun kernel => ?_)
  refine freshly fun strides => freshly fun dilation => padded (kernel, strides) rfl fun _ => ?_
  have (w x y z : Value) : Stays PadsStay (assign n [("kernel_shape", w), ("use_bias", x), ("strides", y),
    ("dilations", z)] : Convert Unit) := stays_padless (by simp)
  infer_instance

theorem pooling_pads (dim : Nat) (method : String) :
    Pads (pooling dim method v) fun w : Value × Value => (setPads v · w.1 w.2) := by
  refine fun n => Begins.then begins_carry (freshly fun size => freshly fun strides => freshly fun kernel => ?_)
  exact padded (kernel, strides) rfl fun _ => .step fun _ => .step fun _ => stays_padless (by simp)

end Keras

namespace TensorFlow

variable {v : Vertex Layer}

instance (m key : String) : Stays PadsStay (claimAttr m key : Build Layer σ Attr) := by
  unfold claimAttr; infer_instance

instance (t : String) : Stays PadsStay (takeSum k t : Build Layer σ Unit) := by unfold takeSum; infer_instance

theorem stays_format {f : List (String × Value)} (h : formatOf v = .ok f) :
    Stays PadsStay (assign k f : Build Layer σ Unit) := by
  refine stays_padless ?_
  unfold formatOf at h
  split at h
  · obtain ⟨x, -, ⟨⟩⟩ := bind_cases h
    simp
  · cases h
    simp

theorem setPool_padded (word : String) :
    Triple (Fresh k) (setPool v k word : Build Layer σ Unit) fun _ => Padded (fun w => (setPads v · w)) k := by
  refine freshly fun strides => freshly fun kernel => freshly fun sizes => ?_
  exact padded _ rfl fun _ => stays_padless (by simp)

end TensorFlow

open TensorFlow

namespace Checkpoint

variable {v : Vertex Layer}

instance (op : String) : Stays PadsStay (identify v k op) := by
  refine .step fun _ => .step fun _ => .known fun format hformat => ?_
  have : Stays PadsStay (assign k format : Convert Unit) := stays_format hformat
  infer_instance

theorem convolution_pads : Pads (convolution v) fun w => (setPads v · w) := by
  have hkernel (n : Nat) : Triple (Fresh n) (setKernel v n) fun _ => Padded (fun w => (setPads v · w)) n := by
    refine freshly fun strides => freshly fun read => freshly fun node => freshly fun a => ?_
    exact padded _ rfl fun _ => .step fun _ => stays_padless (by simp)
  exact fun n => Begins.then begins_carry ((hkernel n).bind fun _ => keeps_padded)

theorem depthwise_pads : Pads (depthwise v) fun w => (setPads v · w) := by
  refine fun n => Begins.then begins_carry (freshly fun strides => freshly fun node => freshly fun sizes => ?_)
  refine padded _ rfl fun _ => ?_
  have (w x : Value) : Stays PadsStay (assign n [("strides", w), ("kernel_shape", x)] : Convert Unit) :=
    stays_padless (by simp)
  infer_instance

theorem pooling_pads (word : String) : Pads (pooling word v) fun w => (setPads v · w) :=
  fun _ => Begins.then begins_carry (setPool_padded word)

end Checkpoint

namespace Frozen

variable {v : Vertex Layer}

instance (op : String) : Stays PadsStay (identify v k op) := by
  refine .step fun _ => .step fun _ => .known fun format hformat => ?_
  have : Stays PadsStay (assign k format : Convert Unit) := stays_format hformat
  infer_instance

theorem convolution_pads : Pads (convolution v) fun w => (setPads v · w) := by
  have hkernel (n : Nat) : Triple (Fresh n) (setKernel v n) fun _ => Padded (fun w => (setPads v · w)) n := by
    refine freshly fun strides => freshly fun padding => freshly fun shape => freshly fun node => ?_
    refine freshly fun w => freshly fun sizes => freshly fun _ => ?_
    exact padded _ rfl fun _ => stays_padless (by simp)
  exact fun n => Begins.then begins_carry ((hkernel n).bind fun _ => keeps_padded)

theorem depthwise_pads : Pads (depthwise v) fun w => (setPads v · w) := by
  refine fun n => Begins.then begins_carry (freshly fun strides => freshly fun node => freshly fun sizes => ?_)
  refine padded _ rfl fun _ => ?_
  have (w x : Value) : Stays PadsStay (assign n [("strides", w), ("kernel_shape", x)] : Convert Unit) :=
    stays_padless (by simp)
  infer_instance

theorem pooling_pads (word : String) : Pads (pooling word v) fun w => (setPads v · w) :=
  fun _ => Begins.then begins_carry (setPool_padded word)

end Frozen

namespace MxNet

variable {v : Vertex Node}

instance (op : String) : Stays PadsStay (identify v k op) := by unfold identify; infer_instance

theorem convolution_pads : Pads (convolution v) fun zeros => (addPads v · zeros) := by
  refine fun n => begins_newLayer.then (freshly fun _ => freshly fun _ => freshly fun given => freshly fun kernel => ?_)
  refine freshly fun _ => freshly fun layout => freshly fun _ => freshly fun group => freshly fun _ => ?_
  refine freshly fun channels => freshly fun _ => freshly fun filters => freshly fun _ => freshly fun bias => ?_
  have (w : Value) : Stays PadsStay (assign n [("data_format", w)] : Convert Unit) := stays_padless (by simp)
  refine freshly fun _ => freshly fun _ => freshly fun _ => freshly fun _ => ?_
  exact padded _ rfl fun _ => inferInstance

theorem pooling_pads (hlocal : flag v "global_pool" "False" = .ok false) :
    Pads (pooling v) fun zeros => (addPads v · zeros) := by
  refine fun n => begins_newLayer.then (freshly fun _ => freshly fun _ => freshly fun type => ?_)
  extract_lets shapes rest
  have hrest (u : Unit) : Triple (Fresh n) (rest u) fun _ => Padded (fun zeros => (addPads v · zeros)) n := by
    refine freshly fun given => freshly fun kernel => .bind_of (.lift fun _ h _ hb => ⟨hb, h⟩) fun isGlobal h => ?_
    cases hlocal.symm.trans h
    rw [if_neg Bool.false_ne_true]
    refine freshly fun _ => freshly fun _ => freshly fun _ => ?_
    exact padded _ rfl fun _ => inferInstance
  have (w : String) : Stays PadsStay (assign n [("pooling_type", .text w)] : Convert Unit) := stays_padless (by simp)
  split
  all_goals exact freshly hrest

end MxNet

end NetBridge.Source

namespace NetBridge.Target.CoreMl

open Source Run List

/-- What arrives at the sides of a window, from the rule that reads the layer to the rule that writes it. -/
theorem rule_sides (v : Vertex Layer) :
    (∀ u d (c : Source.CoreMl.Convolution) y x b b', c.pads = .valid [y, x] →
      (Source.CoreMl.convolution u d c).outcome b = (.ok (), b') → v.item = layerAt b' b.layers.size →
      HandsOver v [y.1, x.1, y.2, x.2]) ∧
    (∀ u dim method shape axes b b', Keras.property u "input_shape" = .ok shape → shape.elements = .ok axes →
      axes.length = 4 → ∀ rule ∈ [Keras.convolution dim u, Keras.pooling dim method u],
      rule.outcome b = (.ok (), b') → v.item = layerAt b' b.layers.size → Rejected v) ∧
    ∀ u pad y x b b', MxNet.hasSetting u "pad" = true → MxNet.setting u "pad" = .ok pad →
      MxNet.wholesOf pad = .ok [y, x] → MxNet.flag u "global_pool" "False" = .ok false →
      ∀ rule ∈ [MxNet.convolution u, MxNet.pooling u], rule.outcome b = (.ok (), b') →
      v.item = layerAt b' b.layers.size → Rejected v := by
  refine ⟨fun u d c y x b b' hc h hv => ?_, fun u dim method shape axes b b' hshape haxes hfour rule hmem h hv => ?_,
    fun u pad y x b b' hgiven hpad hsides hlocal rule hmem h hv => ?_⟩
  · obtain ⟨_, hps, -, rfl⟩ := (Source.CoreMl.convolution_pads c).gives
      (fun _ b => hc ▸ Source.CoreMl.valid_pads y x false) h
    exact pads_handsOver (hv ▸ hps) rfl
  · have hrule : Pads rule fun w : Value × Value => (Keras.setPads u · w.1 w.2) := by
      simp only [mem_cons, not_mem_nil, or_false] at hmem
      rcases hmem with rfl | rfl
      · exact Keras.convolution_pads dim
      · exact Keras.pooling_pads dim method
    obtain ⟨_, hps, hne, hlength⟩ := hrule.gives (fun w b => Keras.setPads_pads w.1 w.2 hshape haxes hfour) h
    exact pads_rejected (hv ▸ hps) hne (by omega)
  · have hrule : Pads rule fun zeros => (MxNet.addPads u · zeros) := by
      simp only [mem_cons, not_mem_nil, or_false] at hmem
      rcases hmem with rfl | rfl
      · exact MxNet.convolution_pads
      · exact MxNet.pooling_pads hlocal
    obtain ⟨_, hps, hne, rfl⟩ := hrule.gives (fun zeros b => MxNet.addPads_pads zeros hpad hgiven hsides) h
    exact pads_rejected (hv ▸ hps) hne (by simp)

end NetBridge.Target.CoreMl
