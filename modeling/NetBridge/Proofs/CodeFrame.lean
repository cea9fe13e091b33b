import NetBridge.Proofs.TensorFlowRules
import NetBridge.Target.Cntk
import NetBridge.Target.MxNet
import NetBridge.Target.PyTorch

/-!
# What a layer's rule changes in the graph

A rule changes nothing in the graph but the output name of its layer (`Local`), and most not even that (`Still`); a
layer that takes pads changes it where the padding layer is written (`padding_turns`).
-/

namespace NetBridge

variable {α β : Type}

namespace Code

open Run

abbrev Still (x : Emit α) : Prop := Stays (fun s s' => s'.graph = s.graph) x

instance (priority := low) (x : Emit α) [hx : Looks x] : Still x :=
  hx.mono (fun _ => rfl) fun _ _ _ h e => e ▸ h

variable {x : Emit α}

theorem keeps_graph {g : LayerGraph} [hx : Still x] : Keeps (fun s => s.graph = g) x :=
  fun s hs a s' h => (hx.keeps s s rfl a s' h).trans hs

instance (helper : String) : Still (need helper) := ⟨fun _ => .modify fun _ h => h⟩

instance (line : String) : Still (say line) := ⟨fun _ => .modify fun _ h => h⟩

instance (layer name : String) (t : Value) : Still (setWeight layer name t) := ⟨fun _ => .modify fun _ h => h⟩

instance (l : Line) : Still (Target.PyTorch.setUp l) := ⟨fun _ => .modify fun _ h => h⟩

instance (layer : String) (dim : Int) : Still (kernelToFront layer dim) := by
  unfold kernelToFront; infer_instance

instance (v : Vertex Layer) : Still (unknown v) := by unfold unknown; infer_instance

/-! ## Layers that rename themselves at most -/

/-- What a run leaves is the graph it found, except for the output name of one vertex. -/
def Local (n : String) (x : Emit α) : Prop :=
  ∀ (g : Graph Layer) (out : String → String), Triple (fun s => g.Renamed out s.graph.graph) x
    fun _ s => ∃ q, g.Renamed (Graph.renameAt out n q) s.graph.graph

theorem Still.local (hx : Still x) (n : String) : Local n x := by
  intro g out s hs a s' h
  refine ⟨out n, ?_⟩
  rw [Graph.renameAt_same, hx.keeps s s rfl a s' h]
  exact hs

variable {n : String}

theorem Local.after {f : α → Emit β} (hx : Still x) (hf : ∀ a, Local n (f a)) : Local n (x >>= f) := by
  intro g out
  refine .bind ?_ fun a => hf a g out
  intro s hs a s' h
  rw [hx.keeps s s rfl a s' h]
  exact hs

theorem local_rename (v : Vertex Layer) (name : String) : Local v.name (rename v name) := by
  intro g out
  exact .modify fun s hs => ⟨name, hs.modify v.name name⟩

theorem local_skip (v : Vertex Layer) : Local v.name (skip v) := .after inferInstance fun _ => local_rename v _

theorem Local.returns (hx : Local n x) (b : β) : Local n (x >>= fun _ => pure b) := by
  intro g out
  exact (hx g out).bind fun _ => .pure fun _ h => h

theorem local_ruleOr {v : Vertex Layer} {rule : String → Option LayerRule}
    (h : ∀ op r, rule op = some r → Local v.name (r v)) (target : String) :
    Local v.name (ruleOr target rule v) := by
  unfold ruleOr
  split
  · rename_i r hr
    exact h _ r hr
  · exact Still.local inferInstance _

end Code

variable {v : Vertex Layer}

namespace Target

open Code Run

/-! ## The rules of each target -/

-- rules with many steps
set_option synthInstance.maxSize 1000

namespace PyTorch

instance : Still (layerPads v) := by unfold layerPads; infer_instance

instance : Still (padded v) := by unfold padded; infer_instance

instance : Still (conv v) := by
  refine .step fun _ => .step fun strides => ?_
  refine .step fun kernel => .step fun ins => ?_
  refine .step fun outs => .step fun group => ?_
  refine .step fun bias => .step fun _ => ?_
  refine .step fun p => ?_
  infer_instance

instance : Still (pool v) := by
  refine .step fun _ => .step fun rank => ?_
  refine .step fun kind => ?_
  extract_lets rest
  infer_instance

theorem rule_local {op : String} {r : LayerRule} (h : rule op = some r) : Local v.name (r v) := by
  unfold rule at h
  split at h
  all_goals cases h
  all_goals first
    | exact (local_rename v "x").returns []
    | exact .after inferInstance fun _ => (local_rename v _).returns []
    | refine Still.local ?_ _
  all_goals
    try dsimp only [dropout, dense, flatten, unary, combined, sigmoid, concat, batchNorm, pad, reduceMean,
      lrn]
    infer_instance

end PyTorch

namespace Cntk

instance : Still (padded v) := by
  refine .step fun mode => ?_
  cases mode with
  | none => infer_instance
  | some mode =>
    refine .step fun x => ?_
    cases mode <;> infer_instance

instance : Still (conv v) := by
  have hhelped : Still (helpedConv v) := by unfold helpedConv; infer_instance
  have hplain : Still (plainConv v) := by unfold plainConv; infer_instance
  unfold conv
  infer_instance

instance : Still (firstSource v) := by unfold firstSource; infer_instance

instance : Still (pool v) := by
  have hunpadded : Still (unpadded v) := by unfold unpadded; infer_instance
  refine .step fun source => ?_
  extract_lets x
  split
  · infer_instance
  · iterate 4 refine .step fun _ => ?_
    infer_instance

theorem dropout_local : Local v.name (dropout v) := by
  refine .after inferInstance fun _ => .after inferInstance fun above => .after inferInstance fun s => ?_
  split
  · exact Still.local inferInstance _
  · exact (local_skip v).returns []

theorem rule_local {op : String} {r : LayerRule} (h : rule op = some r) : Local v.name (r v) := by
  unfold rule at h
  split at h
  all_goals cases h
  all_goals first
    | with_reducible exact dropout_local
    | exact .after inferInstance fun _ => (local_rename v _).returns []
    | refine Still.local ?_ _
  all_goals
    try dsimp only [dataInput, dense, flatten, reshape, activation, combined, constant, concat, batchNorm, pad,
      unary, reduceMean, lrn, leakRelu, crop]
    infer_instance

end Cntk

namespace TensorFlow

instance (extra : String) : Still (padded v extra) := by
  refine .step fun mode => ?_
  cases mode with
  | none => infer_instance
  | some mode =>
    refine .step fun x => ?_
    cases mode <;> infer_instance

instance : Still (pool v) := by
  refine .step fun kind => ?_
  extract_lets rest
  infer_instance

theorem dropout_local : Local v.name (dropout v) := by
  refine .after inferInstance fun s => ?_
  split
  · exact Still.local inferInstance _
  · exact (local_skip v).returns []

theorem rule_local {op : String} {r : LayerRule} (h : rule op = some r) : Local v.name (r v) := by
  unfold rule at h
  split at h
  all_goals cases h
  all_goals first
    | with_reducible exact dropout_local
    | refine Still.local ?_ _
  all_goals
    try dsimp only [conv, constant, combined, dataInput, dense, flatten, reshape, unary, prelu, concat,
      batchNorm, pad, squeeze, reduceMean, lrn, helped, crop, convTranspose]
    infer_instance

end TensorFlow

end Target

variable {P Q : LayerGraph → Prop}

namespace Code

open Run

/-! ## Runs that change the graph once -/

section

class Turns (P Q : LayerGraph → Prop) (x : Emit α) : Prop where
  turns : Triple (fun s => P s.graph) x fun _ s => Q s.graph

variable {x : Emit α}

theorem Still.turns (hx : Still x) (h : ∀ g, P g → Q g) : Turns P Q x := by
  refine ⟨fun s hs a s' hrun => h _ ?_⟩
  rw [hx.keeps s s rfl a s' hrun]
  exact hs

theorem Turns.after {f : α → Emit β} (hx : Still x) (hf : ∀ a, Turns P Q (f a)) : Turns P Q (x >>= f) :=
  ⟨(hx.turns fun _ h => h).turns.bind fun a => (hf a).turns⟩

instance (x : Emit α) (f : α → Emit β) [hx : Still x] [hf : ∀ a, Turns P Q (f a)] : Turns P Q (x >>= f) := .after hx hf

instance (x : Emit α) (f : α → Emit β) [hx : Turns P Q x] [hf : ∀ a, Still (f a)] : Turns P Q (x >>= f) :=
  ⟨hx.turns.bind fun a => ((hf a).turns fun _ h => h).turns⟩

instance (c : Prop) [Decidable c] (x y : Emit α) [hx : Turns P Q x] [hy : Turns P Q y] :
    Turns P Q (if c then x else y) := by
  split
  · exact hx
  · exact hy

end

end Code

namespace Target.MxNet

open Code Run

/-! ## Rules that leave the graph alone -/

instance (name : String) (t : Value) : Still (store name t) := ⟨fun _ => .modify fun _ h => h⟩

instance (own : Table Value) (part array : String) : Still (storeFrom v own part array) := by
  unfold storeFrom; infer_instance

instance : Still (modeOf v) := by unfold modeOf; infer_instance

instance (d : Int) (i : Nat) : Still (feedSize v d i) := by unfold feedSize; infer_instance

instance : Still (feed v) := by
  refine .step fun sizes => .step fun channels => ?_
  exact ⟨fun _ => .modify fun _ h => h⟩

instance (kind : String) : Still (activation kind v) := by unfold activation; infer_instance

instance : Still (dense v) := by
  refine .step fun s => ?_
  extract_lets loaded useBias last rest
  have hrest : ∀ own, Still (rest own) := by
    intro own
    unfold rest
    extract_lets biased
    have hbiased : ∀ u, Still (biased u) := by
      infer_instance
    clear_value biased
    infer_instance
  infer_instance

instance : Still (batchNorm v) := by
  refine .step fun s => ?_
  extract_lets loaded scaled last rest
  infer_instance

def padding : List String := ["Conv", "DepthwiseConv", "ConvTranspose", "Pool"]

theorem rule_still {op : String} {r : LayerRule} (h : rule op = some r) (hop : op ∉ padding) (hne : op ≠ "Relu6") :
    Still (r v) := by
  unfold rule at h
  split at h
  · rename_i hact
    cases h
    unfold activation? at hact
    split at hact <;> cases hact <;> infer_instance
  · unfold namedRule at h
    split at h
    all_goals cases h
    all_goals first
      | exact absurd (by decide) hop
      | exact absurd rfl hne
      | skip
    all_goals
      try dsimp only [dataInput, softmaxOutput, softmax, flatten, embedding, dropout, reshape, concat, cast,
        expandDims, pad, combined, reduceMean, lrn]
      infer_instance

/-! ## Layers that take pads -/

def Pads.isOuter : Pads → Bool
  | .inner _ => false
  | .outer _ => true

def outerPads (l : Layer) : Bool :=
  l.hasAttr "pads" && match Pads.ofFlat (l.ints "pads") with
    | .ok p => p.isOuter
    | .error _ => false

theorem padsOf_turns {f : Pads → Emit β} (h : ∀ p, p.isOuter = outerPads v.item → Turns P Q (f p)) :
    Turns P Q (padsOf v >>= f) := by
  refine ⟨.bind_of ?_ fun p hp => (h p hp).turns⟩
  unfold padsOf
  split
  · rename_i hattr
    refine .bind ?_ fun shape => .lift fun p hp s hs => ⟨hs, ?_⟩
    · exact (Still.turns inferInstance fun _ h => h).turns
    · rw [outerPads, hattr, hp]
      rfl
  · rename_i hattr
    exact .pure fun s hs => ⟨hs, by simp [outerPads, hattr, Pads.isOuter]⟩

section
variable (hinner : outerPads v.item = false → ∀ g, P g → Q g)
  (houter : outerPads v.item = true → ∀ widths fill, Turns P Q (padLine v widths fill))
include hinner houter

theorem conv_turns (kind : ConvKind) : Turns P Q (conv kind v) := by
  refine .after inferInstance fun s => ?_
  extract_lets loaded shape dim kernel strides dilations window rest
  have hrest : ∀ own, Turns P Q (rest own) := by
    intro own
    unfold rest
    extract_lets known
    have hknown : ∀ u, Turns P Q (known u) := by
      intro u
      refine padsOf_turns fun pads hpads => .after inferInstance fun filters => .after inferInstance fun bias => ?_
      extract_lets useBias biased
      have hbiased : ∀ u, Turns P Q (biased u) := by
        intro u
        refine .after inferInstance fun groups => ?_
        extract_lets filters after last
        have hlast : ∀ u, Turns P Q (last u) := by
          intro u
          cases pads with
          | inner ps => exact Still.turns inferInstance (hinner hpads.symm)
          | outer widths =>
            have := houter hpads.symm widths "0.0"
            infer_instance
        clear_value last
        infer_instance
      clear_value biased
      infer_instance
    clear_value known
    infer_instance
  clear_value rest
  infer_instance

theorem pool_turns : Turns P Q (pool v) := by
  unfold pool
  extract_lets whole steps kernel rest
  have hrest : ∀ kind, Turns P Q (rest kind) := by
    intro kind
    refine padsOf_turns fun pads hpads => ?_
    cases pads with
    | inner ps => exact Still.turns inferInstance (hinner hpads.symm)
    | outer widths =>
      have := houter hpads.symm widths (if kind = "max" then "float('-inf')" else "0.0")
      infer_instance
  refine .after inferInstance fun w => ?_
  split
  · exact .after inferInstance hrest
  · exact .after inferInstance hrest

theorem padding_turns {r : LayerRule} (hop : v.item.op ∈ padding) (hr : rule v.item.op = some r) : Turns P Q (r v) := by
  simp only [padding, List.mem_cons, List.not_mem_nil, or_false] at hop
  rcases hop with h | h | h | h <;> rw [h] at hr <;> cases hr
  · exact conv_turns hinner houter .plain
  · exact conv_turns hinner houter .depthwise
  · exact conv_turns hinner houter .transposed
  · exact pool_turns hinner houter

end

end Target.MxNet

end NetBridge
