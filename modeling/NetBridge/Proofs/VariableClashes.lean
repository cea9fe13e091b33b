import NetBridge.Proofs.CodeFrame
import NetBridge.Proofs.TensorFlowCode

/-!
# Clashes of variables in TensorFlow code

What the lines of a layer assign is known from the layer alone (`assigned`). Two layers never assign the same variable
exactly if their variables differ and none is that of the padded input of another (`variables_apart_iff`).
-/

namespace NetBridge.Target.TensorFlow

open Code Run List
open LayerGraph (graphOf)

/-! ## What a layer assigns -/

def listsPads (l : Layer) : Except Fault Bool := do
  match ← AutoPad.ofValue? (← l.get "auto_pad") with
  | some _ => return false
  | none => return !Padding.isNonePairs (← Padding.pairs (← Padding.ofValue (← l.get "pads")))

def padsInput (l : Layer) : Bool :=
  (["Conv", "SeparableConv", "DepthwiseConv", "ConvTranspose"].contains l.op ||
    l.op == "Pool" && !(l.attr "global_pooling").flagValue) && (listsPads l).toOption == some true

def isWritten (phase : String) (l : Layer) : Bool :=
  (rule l.op).isSome && l.op != "UNKNOWN" && (l.op != "Dropout" || phase == "train")

def assigned (phase : String) (l : Layer) : List String :=
  if isWritten phase l then
    (if padsInput l then [variableName l.name ++ "_pad"] else []) ++ [variableName l.name]
  else []

/-! ## The number of lines -/

def Counts (k : Nat) (x : Emit (List Line)) : Prop := Triple (fun _ => True) x fun ls _ => ls.length = k

variable {x y : Emit (List Line)} {body : List (String × List Line)} {n : Network} {phase : String}

section
variable {β : Type} {k : Nat} {v : Vertex Layer}

theorem Counts.bind {x : Emit β} {f : β → Emit (List Line)} (hf : ∀ a, Counts k (f a)) : Counts k (x >>= f) :=
  Triple.bind (fun _ _ _ _ _ => trivial) hf

theorem Counts.pure {ls : List Line} (h : ls.length = k) : Counts k (pure ls) := Triple.pure fun _ _ => h

theorem Counts.throw {e : Fault} : Counts k (throw e) := Triple.throw

theorem Counts.ite {c : Prop} [Decidable c] (hx : Counts k x) (hy : Counts k y) : Counts k (if c then x else y) := by
  split
  · exact hx
  · exact hy

theorem Counts.unless {c p : Bool} (hx : Counts 1 x) (hy : Counts (if p then 2 else 1) y) :
    Counts (if !c && p then 2 else 1) (if c then x else y) := by
  cases c with
  | true => exact hx
  | false => exact hy

theorem padded_lines (extra : String) : Triple (fun _ => True) (padded v extra)
    fun p _ => p.lines.length = if (listsPads v.item).toOption == some true then 1 else 0 := by
  intro s _ p s' h
  obtain ⟨mode, s₁, hauto, h⟩ := step_cases h
  obtain ⟨a, hget, hauto⟩ := lift_cases hauto
  obtain ⟨hmode, rfl⟩ := lift_eq_ok.mp hauto
  cases mode with
  | some mode =>
    have hlists : listsPads v.item = .ok false :=
      (ok_bind hget).trans (ok_bind hmode)
    obtain ⟨x, s₂, -, h⟩ := step_cases h
    rw [hlists]
    cases mode with
    | valid => obtain ⟨rfl, -⟩ := pure_eq_ok.mp h; rfl
    | same => obtain ⟨rfl, -⟩ := pure_eq_ok.mp h; rfl
    | other t => cases h
  | none =>
    obtain ⟨ps, s₂, hpairs, h⟩ := step_cases h
    obtain ⟨c, hpads, hpairs⟩ := lift_cases hpairs
    obtain ⟨d, hlist, hpairs⟩ := lift_cases hpairs
    obtain ⟨hps, rfl⟩ := lift_eq_ok.mp hpairs
    have hlists : listsPads v.item = .ok (!Padding.isNonePairs ps) :=
      (ok_bind hget).trans ((ok_bind hmode).trans ((ok_bind hpads).trans ((ok_bind hlist).trans (ok_bind hps))))
    obtain ⟨x, s₂, -, h⟩ := step_cases h
    rw [hlists]
    split at h
    · rename_i hnone
      obtain ⟨rfl, -⟩ := pure_eq_ok.mp h
      rw [hnone]
      rfl
    · rename_i hsome
      obtain ⟨rfl, -⟩ := pure_eq_ok.mp h
      rw [Bool.eq_false_iff.mpr hsome]
      rfl

theorem Counts.padded {extra : String} {f : Padded → Emit (List Line)}
    (hf : ∀ p, Counts (p.lines.length + 1) (f p)) :
    Counts (if (listsPads v.item).toOption == some true then 2 else 1) (padded v extra >>= f) := by
  refine Triple.bind (padded_lines extra) fun p s hp ls s' h => ?_
  rw [hf p s trivial ls s' h, hp]
  split
  · rfl
  · rfl

theorem conv_counts : Counts (if (listsPads v.item).toOption == some true then 2 else 1) (conv v) :=
  .bind fun _ => .bind fun _ => .padded fun _ => .bind fun _ => .pure (by simp)

theorem helped_counts (function : String) (strides : Vertex Layer → Emit (List Int)) :
    Counts (if (listsPads v.item).toOption == some true then 2 else 1) (helped function strides v) :=
  .bind fun _ => .bind fun _ => .padded fun _ => .pure (by simp)

theorem convTranspose_counts : Counts (if (listsPads v.item).toOption == some true then 2 else 1) (convTranspose v) :=
  .bind fun _ => .bind fun _ => .padded fun _ => .bind fun _ => .pure (by simp)

theorem pool_counts : Counts (if !(v.item.attr "global_pooling").flagValue && (listsPads v.item).toOption == some true
    then 2 else 1) (pool v) := by
  refine .bind fun kind => .ite ?_ (.ite ?_ ?_)
  -- what follows is the same for all kinds of pooling
  all_goals
    refine .bind fun op => .bind fun _ => .bind fun rank => .unless ?_ ?_
    · exact .bind fun _ => .pure rfl
    · exact .bind fun _ => .bind fun _ => .padded fun _ => .pure (by simp)

theorem pad_counts : Counts 1 (pad v) := by
  refine .bind fun pads => .bind fun mode => .ite ?_ (.ite ?_ (.ite ?_ ?_))
  all_goals exact .bind fun _ => .bind fun _ => .pure rfl

theorem dataInput_counts : Counts 1 (dataInput v) := by
  refine .bind fun _ => .ite ?_ ?_
  · exact .bind fun _ => .bind fun _ => .pure rfl
  · exact .bind fun _ => .pure rfl

theorem rule_counts {op : String} {r : LayerRule} (h : rule op = some r) (hop : v.item.op = op) (hu : op ≠ "UNKNOWN")
    (hd : op ≠ "Dropout") : Counts (if padsInput v.item then 2 else 1) (r v) := by
  unfold rule at h
  split at h
  all_goals cases h
  all_goals simp only [padsInput, hop, List.contains_cons, List.contains_nil, String.reduceBEq, Bool.or_false,
    Bool.false_or, Bool.or_true, Bool.true_and, Bool.false_and, Bool.false_eq_true, reduceIte]
  all_goals first
    | exact absurd rfl hu
    | exact absurd rfl hd
    | with_reducible exact conv_counts
    | with_reducible exact pool_counts
    | with_reducible exact dataInput_counts
    | with_reducible exact pad_counts
    | with_reducible exact helped_counts _ _
    | with_reducible exact convTranspose_counts
    -- the others write one line, or none that stands
    | exact .throw
    | (repeat refine .bind fun _ => ?_); exact .pure rfl

end

/-! ## The lines of a layer -/

structure Assigns (phase : String) (v : Vertex Layer) (ls : List Line) (s : Scope) : Prop where
  targets : ls.map (·.target) = (assigned phase v.item).map some
  phase : s.phase = phase

section
variable {g : LayerGraph} {log : List String} {v : Vertex Layer}

theorem Block.targets {ls : List Line} (h : Block g.graph v ls)
    (hlen : ls.length = if padsInput v.item then 2 else 1) : ls.map (·.target) =
      ((if padsInput v.item then [v.variableName ++ "_pad"] else []) ++ [v.variableName]).map some := by
  cases h with
  | plain ht _ =>
    split at hlen
    · cases hlen
    · rename_i hpads
      simp [hpads, ht]
  | padded hpad _ ht _ =>
    split at hlen
    · rename_i hpads
      simp [hpads, hpad, ht]
    · cases hlen

theorem dropout_counts : Triple (fun s => s.phase = "train") (dropout v) fun ls _ => ls.length = 1 := by
  refine .bind_of (.get fun s hs => ⟨hs, hs⟩) fun t ht => ?_
  rw [if_pos ht]
  exact .bind (fun _ _ _ _ _ => trivial) fun _ => .pure fun _ _ => rfl

theorem written_assigns (hv : g.graph.vertices.find? v.name = some v) (hout : v.outputName = v.item.name)
    (hw : isWritten phase v.item = true) :
    Triple (At g log phase) (ruleOr "TensorflowEmitter" rule v) (Assigns phase v) := by
  have hdone {ls : List Line} {s : Scope} (hat : At g log phase s) (hblock : Block g.graph v ls)
      (hlen : ls.length = if padsInput v.item then 2 else 1) : Assigns phase v ls s := by
    refine ⟨?_, hat.phase⟩
    rw [hblock.targets hlen, assigned, if_pos hw, Vertex.variableName, hout]
  simp only [isWritten, Bool.and_eq_true, Bool.or_eq_true, bne_iff_ne, beq_iff_eq] at hw
  obtain ⟨⟨hrule, hu⟩, hd⟩ := hw
  obtain ⟨r, hr⟩ := Option.isSome_iff_exists.mp hrule
  unfold ruleOr
  rw [hr]
  intro s hs ls s' h
  by_cases hdrop : v.item.op = "Dropout"
  · obtain rfl : phase = "train" := hd.resolve_left (· hdrop)
    obtain rfl : dropout = r := by rw [hdrop] at hr; exact Option.some.inj hr
    obtain ⟨hat, hblock⟩ := dropout_train s hs ls s' h
    refine hdone hat hblock ?_
    rw [dropout_counts s hs.phase ls s' h]
    simp [padsInput, hdrop]
  · obtain ⟨hat, hblock⟩ := rule_writes hv hr hu hdrop log phase s hs ls s' h
    exact hdone hat hblock (rule_counts hr rfl hu hdrop s trivial ls s' h)

/-- A layer without lines is skipped, reported or named only. -/
theorem unwritten_assigns (hw : isWritten phase v.item = false) :
    Triple (At g log phase) (ruleOr "TensorflowEmitter" rule v) (Assigns phase v) := by
  have hnone : assigned phase v.item = [] := by simp [assigned, hw]
  have hsaid (l : List String) : Triple (At g l phase) (unknown v) (Assigns phase v) := by
    refine .bind (say_spec v.name) fun _ => .pure fun s hs => ⟨?_, hs.phase⟩
    rw [hnone]
    rfl
  unfold ruleOr
  cases hr : rule v.item.op with
  | none => exact .bind (say_spec _) fun _ => hsaid _
  | some r =>
    by_cases hu : v.item.op = "UNKNOWN"
    · obtain rfl : unknown = r := by rw [hu] at hr; exact Option.some.inj hr
      exact hsaid log
    · simp only [isWritten, hr, Option.isSome_some, Bool.true_and, Bool.and_eq_false_iff, bne_eq_false_iff_eq,
        Bool.or_eq_false_iff, beq_eq_false_iff_ne] at hw
      obtain ⟨hdrop, hphase⟩ := hw.resolve_left hu
      obtain rfl : dropout = r := by rw [hdrop] at hr; exact Option.some.inj hr
      refine (dropout_skip hphase).post ?_
      rintro _ s ⟨rfl, u, p, w, -, -, -, hat⟩
      exact ⟨by rw [hnone]; rfl, hat.phase⟩

theorem layer_assigns (hv : g.graph.vertices.find? v.name = some v) (hout : v.outputName = v.item.name) :
    Triple (At g log phase) (ruleOr "TensorflowEmitter" rule v) (Assigns phase v) := by
  cases hw : isWritten phase v.item with
  | true => exact written_assigns hv hout hw
  | false => exact unwritten_assigns hw

end

/-! ## All layers -/

structure Assigning (n : Network) (phase : String) (body : List (String × List Line)) (s : Scope) : Prop where
  lines : ∀ e ∈ body, ∃ u, (graphOf n).vertices.find? e.1 = some u ∧
    e.2.map (·.target) = (assigned phase u.item).map some
  phase : s.phase = phase

/-! ## The code of a network -/

def writtenLayers (n : Network) (phase : String) : List Layer :=
  ((graphOf n).order.filterMap fun m => ((graphOf n).vertices.find? m).map (·.item)).filter
    (isWritten phase)

def ClashFree (body : List (String × List Line)) : Prop :=
  ∀ e ∈ tagged body, ∀ e' ∈ tagged body, e.1 ≠ e'.1 → e.2.target ≠ e'.2.target

/-- A name as networks may have it: letters, digits and points, and after the first character also low lines and
slashes. -/
def legalName (s : String) : Bool :=
  match s.toList with
  | [] => false
  | c :: cs => (c.isAlphanum || c == '.') && cs.all fun c => c.isAlphanum || c == '.' || c == '_' || c == '/'

variable {s : Scope} {m : String}

theorem emitAll_assigning {w : Option Weights}
    (h : (emitAll (ruleOr "TensorflowEmitter" rule)).outcome (startScope n w phase) = (.ok body, s)) :
    body.map (·.1) = (graphOf n).order ∧ ∃ out, (graphOf n).Renamed out s.graph.graph ∧ Assigning n phase body s := by
  refine emitAll_walk (I := fun _ _ => Assigning n phase) rfl ⟨nofun, rfl⟩
    (fun done out body v s ls t hd hs hrun => ?_) h
  obtain ⟨-, hitem, -, hout⟩ := LayerGraph.find?_graphOf hd.vertex
  have ht := layer_assigns hd.found (hout.trans hitem.symm) s ⟨rfl, rfl, hs.phase⟩ ls t hrun
  have hlocal : Local v.name (ruleOr "TensorflowEmitter" rule v) := local_ruleOr (fun _ _ => rule_local) _
  obtain ⟨q, hq⟩ := hlocal (graphOf n) out s hd.renamed ls t hrun
  refine ⟨q, hq, fun e he => ?_, ht.phase⟩
  rcases mem_append.mp he with he | he
  · exact hs.lines e he
  · rw [mem_singleton.mp he]
    exact ⟨v, hd.vertex, ht.targets⟩

theorem mem_assigned {l : Layer} (hw : isWritten phase l = true) {x : String} :
    x ∈ assigned phase l ↔ x = variableName l.name ∨ padsInput l = true ∧ x = variableName l.name ++ "_pad" := by
  rw [assigned, if_pos hw]
  cases padsInput l with
  | true => simp [or_comm]
  | false => simp

/-- The variables of two layers differ if neither pair of them is equal. -/
theorem disjoint_assigned_iff {a b : Layer} (ha : isWritten phase a = true)
    (hb : isWritten phase b = true) : (∀ x ∈ assigned phase a, x ∉ assigned phase b) ↔
      variableName a.name ≠ variableName b.name ∧
      (padsInput b = true → variableName a.name ≠ variableName b.name ++ "_pad") ∧
      (padsInput a = true → variableName b.name ≠ variableName a.name ++ "_pad") := by
  simp only [mem_assigned ha, mem_assigned hb]
  constructor
  · intro h
    refine ⟨fun e => h _ (.inl rfl) (.inl e), fun hp e => h _ (.inl rfl) (.inr ⟨hp, e⟩), fun hp e => ?_⟩
    exact h _ (.inr ⟨hp, rfl⟩) (.inl e.symm)
  · rintro ⟨hne, hb, ha⟩ x (rfl | ⟨hp, rfl⟩) (hx | ⟨hp', hx⟩)
    · exact hne hx
    · exact hb hp' hx
    · exact ha hp hx.symm
    · exact hne ((String.append_left_inj _).mp hx)

section
variable (hwalked : body.map (·.1) = (graphOf n).order) (h : Assigning n phase body s)
include hwalked h

theorem mem_tagged_iff {x : Option String} : (∃ l, (m, l) ∈ tagged body ∧ l.target = x) ↔
      ∃ a ∈ writtenLayers n phase, a.name = m ∧ x ∈ (assigned phase a).map some := by
  have hitem {u : Vertex Layer} (hu : (graphOf n).vertices.find? m = some u) : u.item.name = m :=
    (LayerGraph.find?_graphOf hu).2.1
  constructor
  · rintro ⟨l, hl, rfl⟩
    obtain ⟨e, he, hl⟩ := mem_flatMap.mp hl
    obtain ⟨k, hk, hl⟩ := mem_map.mp hl
    obtain ⟨rfl, rfl⟩ := Prod.mk.inj hl
    obtain ⟨u, hu, htargets⟩ := h.lines e he
    have hx : k.target ∈ (assigned phase u.item).map some := htargets ▸ mem_map_of_mem hk
    have hwritten : isWritten phase u.item = true := by
      by_contra hnot
      rw [assigned, if_neg hnot] at hx
      cases hx
    refine ⟨u.item, mem_filter.mpr ⟨mem_filterMap.mpr ⟨e.1, ?_, by rw [hu]; rfl⟩, hwritten⟩, hitem hu, hx⟩
    rw [← hwalked]
    exact mem_map_of_mem he
  · rintro ⟨a, ha, rfl, hx⟩
    obtain ⟨ha, -⟩ := mem_filter.mp ha
    obtain ⟨m, hm, ha⟩ := mem_filterMap.mp ha
    obtain ⟨u, hu, rfl⟩ := Option.map_eq_some_iff.mp ha
    rw [← hwalked] at hm
    obtain ⟨e, he, rfl⟩ := mem_map.mp hm
    obtain ⟨u', hu', htargets⟩ := h.lines e he
    cases hu.symm.trans hu'
    rw [← htargets] at hx
    obtain ⟨l, hl, rfl⟩ := mem_map.mp hx
    refine ⟨l, mem_flatMap.mpr ⟨e, he, ?_⟩, rfl⟩
    rw [(LayerGraph.find?_graphOf hu).2.1]
    exact mem_map_of_mem hl

theorem clashFree_iff :
    ClashFree body ↔ ∀ a ∈ writtenLayers n phase, ∀ b ∈ writtenLayers n phase, a.name ≠ b.name →
      variableName a.name ≠ variableName b.name ∧
      (padsInput b = true → variableName a.name ≠ variableName b.name ++ "_pad") := by
  have hdisjoint : ClashFree body ↔ ∀ a ∈ writtenLayers n phase, ∀ b ∈ writtenLayers n phase, a.name ≠ b.name →
      ∀ x ∈ assigned phase a, x ∉ assigned phase b := by
    constructor
    · intro hfree a ha b hb hne x hxa hxb
      obtain ⟨l, hl, hlx⟩ := (mem_tagged_iff hwalked h).mpr ⟨a, ha, rfl, mem_map_of_mem hxa⟩
      obtain ⟨l', hl', hlx'⟩ := (mem_tagged_iff hwalked h).mpr ⟨b, hb, rfl, mem_map_of_mem hxb⟩
      exact hfree _ hl _ hl' hne (hlx.trans hlx'.symm)
    · rintro hall ⟨m, l⟩ hl ⟨m', l'⟩ hl' hne e
      obtain ⟨a, ha, rfl, hx⟩ := (mem_tagged_iff hwalked h).mp ⟨l, hl, rfl⟩
      obtain ⟨b, hb, rfl, hx'⟩ := (mem_tagged_iff hwalked h).mp ⟨l', hl', rfl⟩
      obtain ⟨x, hxa, hx⟩ := mem_map.mp hx
      obtain ⟨y, hyb, hy⟩ := mem_map.mp hx'
      obtain rfl : x = y := Option.some.inj (hx.trans (e.trans hy.symm))
      exact hall a ha b hb hne x hxa hyb
  have hwritten {a : Layer} (ha : a ∈ writtenLayers n phase) : isWritten phase a = true := (mem_filter.mp ha).2
  rw [hdisjoint]
  constructor
  · intro hall a ha b hb hne
    obtain ⟨hvar, hpad, -⟩ := (disjoint_assigned_iff (hwritten ha) (hwritten hb)).mp (hall a ha b hb hne)
    exact ⟨hvar, hpad⟩
  · intro hall a ha b hb hne
    obtain ⟨hvar, hpad⟩ := hall a ha b hb hne
    exact (disjoint_assigned_iff (hwritten ha) (hwritten hb)).mpr ⟨hvar, hpad, (hall b hb a ha hne.symm).2⟩

end

theorem variableName_of_legal (h : legalName m = true) (hslash : '/' ∉ m.toList) : variableName m = m := by
  refine variableName_eq_self fun c hc => ⟨fun e => hslash (e ▸ hc), ?_⟩
  rintro rfl
  unfold legalName at h
  split at h
  · cases h
  · rename_i d ds hm
    rw [hm] at hc
    simp only [Bool.and_eq_true, all_eq_true] at h
    rcases mem_cons.mp hc with rfl | hc
    · exact absurd h.1 (by decide)
    · exact absurd (h.2 _ hc) (by decide)

def slashedNet : Network := { layers := [
  { name := "x", op := "DataInput" },
  { name := "a/b", op := "Relu", inputs := ["x"] },
  { name := "a_b", op := "Tanh", inputs := ["x"] }] }

end NetBridge.Target.TensorFlow
