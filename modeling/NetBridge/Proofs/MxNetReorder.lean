import NetBridge.Proofs.MxNetListing
import Mathlib.Logic.Equiv.Basic

/-!
# Symbols listed in another order

The order of the nodes of a symbol matters only for the layout in force, that of the last convolution or dense layer
before. Where it answers the questions of the nodes alike, the result is the same (`convert_reordered`).
-/

namespace NetBridge.Source.MxNet

open List

/-! ## Lists in another order -/

structure Renumbered (σ : Equiv.Perm Nat) (v v' : Value) : Prop where
  fields : ∀ f ≠ "inputs", v'.field? f = v.field? f
  inputs : inputsOf v' = (inputsOf v).map σ

def Reordered (σ : Equiv.Perm Nat) (nodes nodes' : List Value) : Prop :=
  ∀ i, Option.Rel (Renumbered σ) nodes[i]? nodes'[σ i]?

section
variable {σ : Equiv.Perm Nat} {v v' : Value} {nodes nodes' : List Value}

theorem Renumbered.symm (h : Renumbered σ v v') : Renumbered σ.symm v' v where
  fields f hf := (h.fields f hf).symm
  inputs := by
    rw [h.inputs]
    simp

theorem Reordered.symm (h : Reordered σ nodes nodes') : Reordered σ.symm nodes' nodes := by
  intro i
  have hi := h (σ.symm i)
  rw [Equiv.apply_symm_apply] at hi
  generalize nodes[σ.symm i]? = o at hi ⊢
  generalize nodes'[i]? = o' at hi ⊢
  cases hi with
  | some hv => exact .some hv.symm
  | none => exact .none

theorem Renumbered.name_eq (h : Renumbered σ v v') : nodeName? v' = nodeName? v := by
  rw [nodeName?, nodeName?, h.fields _ (by decide)]

theorem Renumbered.node_eq (h : Renumbered σ v v') : nodeOf v' = nodeOf v := by
  have hop := h.fields "op" (by decide)
  have hattr := h.fields "attr" (by decide)
  have hparam := h.fields "param" (by decide)
  have hattrs := h.fields "attrs" (by decide)
  simp only [nodeOf, settingsOf, findSome?_cons, findSome?_nil, hop, hattr, hparam, hattrs]

theorem Renumbered.vertex_eq (h : Renumbered σ v v') : vertexOf? v' = vertexOf? v := by
  rw [vertexOf?, vertexOf?, h.name_eq, h.node_eq]

theorem Renumbered.isComplete_eq (h : Renumbered σ v v') : isComplete v' = isComplete v := by
  rw [isComplete, isComplete, h.name_eq, h.node_eq]

theorem Reordered.vertex_eq (h : Reordered σ nodes nodes') (i : Nat) :
    nodes'[σ i]?.map vertexOf? = nodes[i]?.map vertexOf? := by
  have hi := h i
  generalize nodes[i]? = o at hi ⊢
  generalize nodes'[σ i]? = o' at hi ⊢
  cases hi with
  | some hv => exact congrArg some hv.vertex_eq
  | none => rfl

theorem Reordered.exists_mem (h : Reordered σ nodes nodes') (hv : v ∈ nodes) : ∃ v' ∈ nodes', Renumbered σ v v' := by
  obtain ⟨i, hi⟩ := mem_iff_getElem?.mp hv
  have hrel := h i
  rw [hi] at hrel
  generalize ho : nodes'[σ i]? = o at hrel
  cases hrel with
  | some hv' => exact ⟨_, mem_of_getElem? ho, hv'⟩

theorem Reordered.isComplete (h : Reordered σ nodes nodes') (hcomplete : ∀ v ∈ nodes, isComplete v = true) :
    ∀ v' ∈ nodes', MxNet.isComplete v' = true := by
  intro v' hv'
  obtain ⟨v, hv, hsame⟩ := h.symm.exists_mem hv'
  rw [← hsame.isComplete_eq]
  exact hcomplete v hv

theorem Reordered.lists (h : Reordered σ nodes nodes') {m : String} {u : Vertex Node} (hu : Lists nodes nodes m u) :
    Lists nodes' nodes' m u := by
  obtain ⟨v, hv, w, hw, hname, rfl⟩ := hu
  obtain ⟨v', hv', hsame⟩ := h.exists_mem hv
  refine ⟨v', hv', w, hsame.vertex_eq.trans hw, hname, ?_⟩
  have hsources : sourcesIn nodes' v' = sourcesIn nodes v := by
    rw [sourcesIn, hsame.inputs, filterMap_map]
    refine filterMap_congr fun j _ => congrArg (Option.map Vertex.name) ?_
    have := congrArg (Option.bind · id) (h.vertex_eq j)
    simpa only [Option.bind_map, Function.id_comp] using this
  rw [hsources]

theorem perm_of_getElem? {α : Type} {l l' : List α} (σ : Equiv.Perm Nat) (h : ∀ i, l'[σ i]? = l[i]?) : l'.Perm l := by
  have hlist (l : List α) : l.map some = (range l.length).map (l[·]?) := by
    refine ext_getElem? fun i => ?_
    rcases Nat.lt_or_ge i l.length with hi | hi
    · simp [hi]
    · simp [hi]
  have hrange : ((range l'.length).map σ.symm).Perm (range l.length) := by
    rw [perm_ext_iff_of_nodup (nodup_range.map σ.symm.injective) nodup_range]
    intro i
    have hlength : σ i < l'.length ↔ i < l.length := by
      rw [← not_le, ← not_le, ← getElem?_eq_none_iff, ← getElem?_eq_none_iff, h]
    rw [mem_range, ← hlength, mem_map]
    constructor
    · rintro ⟨j, hj, rfl⟩
      simpa using hj
    · exact fun hi => ⟨σ i, by simpa using hi, by simp⟩
  have hl' : l'.map some = ((range l'.length).map σ.symm).map (l[·]?) := by
    rw [hlist, map_map]
    exact map_congr_left fun j _ => by rw [Function.comp_apply, ← h, Equiv.apply_symm_apply]
  have hmap : (l'.map some).Perm (l.map some) := by
    rw [hl', hlist l]
    exact hrange.map _
  exact (map_perm_map_iff (Option.some_injective α)).mp hmap

theorem Reordered.listing (h : Reordered σ nodes nodes') (hnodes : Listing nodes) (hearlier : ReadsEarlier nodes') :
    Listing nodes' := by
  refine ⟨hearlier, ?_⟩
  have hperm : (nodes'.map vertexOf?).Perm (nodes.map vertexOf?) := by
    refine perm_of_getElem? σ fun i => ?_
    rw [getElem?_map, getElem?_map, h.vertex_eq]
  have hfilter := hperm.filterMap id
  rw [filterMap_map, filterMap_map] at hfilter
  exact (hfilter.flatMap_right layerNames).nodup_iff.mpr hnodes.layers

variable {arrays : Option (Table Tensor)} {shapes : Table (List Value)} {b c : Base}

theorem StartOf.sameData (hb : StartOf nodes arrays shapes b) (hc : StartOf nodes' arrays shapes c) : SameData b c :=
  ⟨hc.shapes.trans hb.shapes.symm, hc.arrays.trans hb.arrays.symm, hc.loaded.trans hb.loaded.symm⟩

theorem StartOf.vertex_eq (hb : StartOf nodes arrays shapes b) (hc : StartOf nodes' arrays shapes c)
    (h : Reordered σ nodes nodes') (m : String) : plainOf c.graph m = plainOf b.graph m := by
  refine Option.ext fun u => ?_
  rw [hc.vertices, hb.vertices]
  exact ⟨h.symm.lists, h.lists⟩

theorem StartOf.alike (hb : StartOf nodes arrays shapes b) (hc : StartOf nodes' arrays shapes c)
    (h : Reordered σ nodes nodes') (hanswers : ∀ m ∈ b.graph.order, SameAnswers b c m) (m : String) : Alike b c m := by
  refine ⟨hb.vertex_eq hc h m, fun u hu => hanswers m ?_ u hu⟩
  rw [hb.listed, hu]
  rfl

/-- Two listings of a symbol give the same layers and weights, and one can be converted if the other can, as long as
the layout in force answers the questions of each node alike. What is recorded for a node depends on the nodes above it
only: it is the same in every symbol in which these are the same. -/
theorem convert_reordered (hσ : Reordered σ nodes nodes') (hnodes : Listing nodes) (hnodes' : ReadsEarlier nodes')
    {sizes : List Int} (hb : start nodes sizes arrays shapes = .ok b) :
    (∃ c, start nodes' sizes arrays shapes = .ok c ∧ ((∀ m ∈ b.graph.order, SameAnswers b c m) →
      (∀ t, convert.outcome b = (.ok (), t) → ∃ t', convert.outcome c = (.ok (), t') ∧ SameRecord t t') ∧
      ∀ t', convert.outcome c = (.ok (), t') → ∃ t, convert.outcome b = (.ok (), t) ∧ SameRecord t t')) ∧
    ∀ others, Listing others → ∀ sizes' c, start others sizes' arrays shapes = .ok c →
      ∀ n u, plainOf b.graph n = some u → (∀ m, Relation.ReflTransGen b.graph.Feeds m n → Alike b c m) →
        ∀ t t', convert.outcome b = (.ok (), t) → convert.outcome c = (.ok (), t') → SameFor t t' u := by
  have hfirst := hnodes.startOf hb
  refine ⟨?_, fun others hothers sizes' c hc n u hu halike t t' ht ht' => ?_⟩
  · obtain ⟨c, hc, hsecond⟩ := (hσ.listing hnodes hnodes').start sizes arrays shapes
      (hσ.isComplete (isComplete_of_start hb))
    have hdata := hfirst.sameData hsecond
    refine ⟨c, hc, fun hanswers => ?_⟩
    have halike := hfirst.alike hsecond hσ hanswers
    refine ⟨fun t ht => recorded_alike hfirst.toOpening hsecond.toOpening hdata halike ht, fun t' ht' => ?_⟩
    obtain ⟨t, ht, hsame⟩ := recorded_alike hsecond.toOpening hfirst.toOpening hdata.symm
      (fun m => (halike m).symm hdata) ht'
    exact ⟨t, ht, hsame.symm⟩
  · have hother := hothers.startOf hc
    exact recorded_above hfirst.toOpening hother.toOpening (hfirst.sameData hother) halike hu ht ht'

end

/-! ## Branches -/

def symbolNode (op name : String) (settings : List (String × Value)) (inputs : List Nat) : Value :=
  .record [("op", .text op), ("name", .text name), ("attr", .record settings),
    ("inputs", .list (inputs.map fun i : Nat => .list [.int i, .int 0, .int 0]))]

theorem renumbered_symbolNode (σ : Equiv.Perm Nat) (op name : String) (settings : List (String × Value))
    (inputs : List Nat) :
    Renumbered σ (symbolNode op name settings inputs) (symbolNode op name settings (inputs.map σ)) := by
  have hinputs (inputs : List Nat) : inputsOf (symbolNode op name settings inputs) = inputs := by
    have hposition (i : Nat) : position? (.list [.int i, .int 0, .int 0]) = some i := by simp [position?]
    have hfield : (symbolNode op name settings inputs).field? "inputs" =
        some (.list (inputs.map fun i : Nat => .list [.int i, .int 0, .int 0])) := by
      simp [symbolNode, Value.field?]
    rw [inputsOf, hfield, Option.elim_some, Value.elems, filterMap_map]
    simp only [Function.comp_def, hposition, filterMap_some]
  refine ⟨fun f hf => ?_, by rw [hinputs, hinputs]⟩
  have hne : ("inputs" == f) = false := beq_false_of_ne (.symm hf)
  simp only [symbolNode, Value.field?, find?_cons, hne]

def convolutionNode (name : String) : Value :=
  symbolNode "Convolution" name [("kernel", .text "(1, 1)"), ("num_filter", .text "4")] [0]

def normNode (input : Nat) : Value := symbolNode "BatchNorm" "bn" [("eps", .text "0.5")] [input]

def branches : List Value :=
  [symbolNode "null" "data" [] [], convolutionNode "c", convolutionNode "d", normNode 1,
    symbolNode "elemwise_add" "sum" [] [3, 2]]

def branchesSwapped : List Value :=
  [symbolNode "null" "data" [] [], convolutionNode "d", convolutionNode "c", normNode 2,
    symbolNode "elemwise_add" "sum" [] [3, 1]]

def branchShapes : Table (List Value) :=
  .ofList (("data", [.list [.int 1, .int 3, .int 8, .int 8]]) ::
    ["c", "d", "bn", "sum"].map fun name => (name, [.list [.int 1, .int 4, .int 8, .int 8]]))

def opened (nodes : List Value) : Base := Run.resultD (start nodes [3, 8, 8] none branchShapes) { own := {} }

theorem convert_reordered_branches : ∃ t t', convert.outcome (opened branches) = (.ok (), t) ∧
    convert.outcome (opened branchesSwapped) = (.ok (), t') ∧ SameRecord t t' ∧
      ∀ n u, plainOf (opened branches).graph n = some u → SameFor t t' u := by
  have hswap : Reordered (Equiv.swap 1 2) branches branchesSwapped := by
    intro i
    rcases i with _ | _ | _ | _ | _ | i
    · exact .some (renumbered_symbolNode ..)
    · exact .some (renumbered_symbolNode ..)
    · exact .some (renumbered_symbolNode ..)
    · exact .some (renumbered_symbolNode ..)
    · exact .some (renumbered_symbolNode ..)
    · have hfixed : Equiv.swap 1 2 (i + 5) = i + 5 := Equiv.swap_apply_of_ne_of_ne (by omega) (by omega)
      exact .none
  have hnodes : Listing branches := ⟨by decide +kernel, by decide +kernel⟩
  have hnodes' : ReadsEarlier branchesSwapped := by decide +kernel
  have hb : start branches [3, 8, 8] none branchShapes = .ok (opened branches) := Run.eq_resultD (by decide +kernel)
  obtain ⟨⟨c, hc, hall⟩, hothers⟩ := convert_reordered hswap hnodes hnodes' hb
  have hb' : start branchesSwapped [3, 8, 8] none branchShapes = .ok (opened branchesSwapped) :=
    Run.eq_resultD (by decide +kernel)
  cases hb'.symm.trans hc
  have hanswers : ∀ m ∈ (opened branches).graph.order, SameAnswers (opened branches) (opened branchesSwapped) m := by
    decide +kernel
  obtain ⟨t, ht⟩ : ∃ t, convert.outcome (opened branches) = (.ok (), t) :=
    ⟨_, Run.outcome_of_isSome (by decide +kernel)⟩
  obtain ⟨t', ht', hsame⟩ := (hall hanswers).1 t ht
  have hlisting := hswap.listing hnodes hnodes'
  refine ⟨t, t', ht, ht', hsame, fun n u hu => ?_⟩
  refine hothers _ hlisting _ _ hc n u hu (fun m _ => ?_) t t' ht ht'
  exact (hnodes.startOf hb).alike (hlisting.startOf hc) hswap hanswers m

def axesOf (t : Base) : List (String × Int) :=
  t.layers.toList.filterMap fun l => match l.attr "axis" with
    | .int n => some (l.name, n)
    | _ => none

def denseNode : Value := symbolNode "FullyConnected" "f" [("num_hidden", .text "2")] [0]

def denseFirst : List Value := [symbolNode "null" "data" [] [], denseNode, convolutionNode "c", normNode 2]

def denseLast : List Value := [symbolNode "null" "data" [] [], convolutionNode "c", denseNode, normNode 1]

/-- The normalisation finds the layout of a dense layer that it does not read. -/
theorem axis_of_other_branch :
    ((convert.outcome (opened denseFirst)).1.toOption.isSome = true ∧
      axesOf (convert.outcome (opened denseFirst)).2 = [("bn", 3)]) ∧
    (convert.outcome (opened denseLast)).1.toOption.isSome = true ∧
      axesOf (convert.outcome (opened denseLast)).2 = [("bn", 1)] := by
  decide +kernel

end NetBridge.Source.MxNet
