import NetBridge.Proofs.BuilderSteps
import NetBridge.Proofs.DenseLayout

/-!
# Shares of a conversion

The turn of a node adds a share to the conversion (`Share.on`). A step is `Uniform` if, once it succeeds at one site,
it adds the same share at all sites. Most steps only set attributes and weights (`Calm`); the others change the frame
of the share in a known way (`Does`).
-/

namespace NetBridge.Source.MxNet

open Run

abbrev Base := Builder Node State

def ownName? (name : String) : Option String := if Text.startsWith name "_" then some (Text.drop 1 name) else none

def stripped (name : String) : String := (ownName? name).getD name

def putWeight (w : Weights) (key : String × String) (v : Value) : Weights :=
  w.insert key.1 ((w.findD key.1 ∅).insert key.2 v)

/-- Where a weight of a node is stored: under the node and the name of the weight, or, for the number that an
operator takes, as the value of a layer of its own. -/
def weightKey (n : String) : Option String → String × String
  | some name => (n, name)
  | none => (n ++ "_second", "value")

/-- What the turn of a node adds: a name for its output, layers, the one of them that is known by name, weights,
a layout and lines of the log. -/
structure Share where
  output : Option String := none
  layers : List Layer := []
  named : Option Nat := none
  writes : List (Option String × Value) := []
  layout : Option Value := none
  log : List String := []
  ordinary : ∀ p ∈ writes, p.1 ≠ some "value" := by simp

def Share.on (s : Share) (n : String) (b : Base) : Base where
  graph := s.output.elim b.graph fun q => b.graph.modify n fun v => { v with outputName := q }
  layers := b.layers ++ s.layers.toArray
  weights := s.writes.foldl (fun w p => putWeight w (weightKey n p.1) p.2) b.weights
  loaded := b.loaded
  log := b.log ++ s.log
  own := { b.own with
    layout := s.layout.getD b.own.layout
    byName := s.named.elim b.own.byName fun i => b.own.byName.insert (stripped n) (b.layers.size + i) }

structure Frame where
  output : Option String := none
  headers : List (String × List String) := []
  named : Option Nat := none
  layout : Option Value := none

def Share.frame (s : Share) : Frame := ⟨s.output, s.layers.map header, s.named, s.layout⟩

/-! ## Steps at many sites -/

def Uniform {β : Type} (sites : Base → Prop) (n : String) (F : Frame) (x : Base → Convert β)
    (Q : (Base → β) → Frame → Prop) : Prop :=
  ∀ s : Share, s.frame = F → ∀ b, sites b → ∀ a t, (x b).outcome (s.on n b) = (.ok a, t) →
    ∃ r, ∃ s' : Share, Q r s'.frame ∧ ∀ c, sites c → (x c).outcome (s.on n c) = (.ok (r c), s'.on n c)

variable {g : Base → Base → Base}

section
variable {β γ : Type} {sites : Base → Prop} {n : String} {F : Frame}
  {Q : (Base → γ) → Frame → Prop} {x : Base → Convert β} {f : Base → β → Convert γ}

theorem Uniform.bind {Q : (Base → β) → Frame → Prop} {R : (Base → γ) → Frame → Prop} (hx : Uniform sites n F x Q)
    (hf : ∀ r F', Q r F' → Uniform sites n F' (fun c => f c (r c)) R) : Uniform sites n F (fun c => x c >>= f c) R := by
  intro s hs b hb a t h
  obtain ⟨a₁, t₁, h₁, h₂⟩ := step_cases h
  obtain ⟨r, s₁, hr, hall⟩ := hx s hs b hb a₁ t₁ h₁
  have hb₁ := hall b hb
  rw [h₁] at hb₁
  cases hb₁
  obtain ⟨r', s₂, hr', hall'⟩ := hf r _ hr s₁ rfl b hb a t h₂
  exact ⟨r', s₂, hr', fun c hc => bind_ok (hall c hc) (hall' c hc)⟩

theorem Uniform.imp {Q R : (Base → β) → Frame → Prop} (hx : Uniform sites n F x Q)
    (h : ∀ r F', Q r F' → R r F') : Uniform sites n F x R := by
  intro s hs b hb a t ht
  obtain ⟨r, s', hr, hall⟩ := hx s hs b hb a t ht
  exact ⟨r, s', h r _ hr, hall⟩

theorem Uniform.congr {x y : Base → Convert β} {Q : (Base → β) → Frame → Prop} (hy : Uniform sites n F y Q)
    (h : ∀ c, sites c → x c = y c) : Uniform sites n F x Q := by
  intro s hs b hb a t ht
  rw [h b hb] at ht
  obtain ⟨r, s', hr, hall⟩ := hy s hs b hb a t ht
  exact ⟨r, s', hr, fun c hc => by rw [h c hc]; exact hall c hc⟩

theorem Uniform.given {e : Except Fault β} (hf : ∀ a, e = .ok a → Uniform sites n F (fun c => f c a) Q) :
    Uniform sites n F (fun c => (liftM e : Convert β) >>= f c) Q := by
  cases e with
  | error e =>
    intro s hs b hb a t h
    cases h
  | ok a => exact hf a rfl

theorem Uniform.throw {e : Fault} {Q : (Base → β) → Frame → Prop} :
    Uniform sites n F (fun _ => MonadExcept.throw e) Q := by
  intro s hs b hb a t h
  cases h

theorem Uniform.read (hx : Uniform sites n F x fun r F' => F' = F ∧ ∃ a, r = fun _ => a)
    (hf : ∀ a, Uniform sites n F (fun c => f c a) Q) : Uniform sites n F (fun c => x c >>= f c) Q := by
  refine hx.bind fun r F' hr => ?_
  obtain ⟨rfl, a, rfl⟩ := hr
  exact hf a

/-- The step gives the same result at all sites and only changes attributes, weights and the log. -/
class Calm (sites : Base → Prop) (n : String) (x : Base → Convert β) : Prop where
  uniform : ∀ F, Uniform sites n F x fun r F' => F' = F ∧ ∃ a, r = fun _ => a

theorem Calm.bind (hx : Calm sites n x) (hf : ∀ a, Uniform sites n F (fun c => f c a) Q) :
    Uniform sites n F (fun c => x c >>= f c) Q :=
  (hx.uniform F).read hf

theorem Uniform.calm
    [hx : Calm sites n x] (hf : ∀ a, Uniform sites n F (fun c => f c a) Q) : Uniform sites n F
    (fun c => x c >>= f c) Q :=
  hx.bind hf

theorem Uniform.last [hx : Calm sites n x] : Uniform sites n F x fun _ F' => F' = F :=
  (hx.uniform F).imp fun _ _ h => h.1

theorem Calm.of_known (h : ∀ (s : Share) b, sites b → ∀ a t,
    (x b).outcome (s.on n b) = (.ok a, t) → ∃ s' : Share, s'.frame = s.frame ∧
      ∀ c, sites c → (x c).outcome (s.on n c) = (.ok a, s'.on n c)) : Calm sites n x := by
  refine ⟨fun F s hs b hb a t ht => ?_⟩
  obtain ⟨s', hs', hall⟩ := h s b hb a t ht
  exact ⟨fun _ => a, s', ⟨hs'.trans hs, a, rfl⟩, hall⟩

instance (x : Base → Convert β) (f : Base → β → Convert γ) [hx : Calm sites n x]
    [hf : ∀ a, Calm sites n fun c => f c a] : Calm sites n fun c => x c >>= f c :=
  ⟨fun F => hx.bind fun a => (hf a).uniform F⟩

instance (a : β) : Calm sites n fun _ => (pure a : Convert β) := by
  refine .of_known fun s b _ a' t h => ?_
  obtain ⟨rfl, rfl⟩ := pure_eq_ok.mp h
  exact ⟨s, rfl, fun c _ => rfl⟩

instance (e : Except Fault β) : Calm sites n fun _ => (liftM e : Convert β) := by
  refine .of_known fun s b _ a t h => ?_
  obtain ⟨rfl, rfl⟩ := lift_eq_ok.mp h
  exact ⟨s, rfl, fun c _ => rfl⟩

instance (e : Fault) : Calm sites n fun _ => (throw e : Convert β) := by
  refine .of_known fun s b _ a t h => ?_
  cases h

instance (p : Prop) [Decidable p] (x y : Base → Convert β) [hx : Calm sites n x] [hy : Calm sites n y] :
    Calm sites n fun c => if p then x c else y c := by
  by_cases hp : p
  · simpa only [hp, if_true] using hx
  · simpa only [hp, if_false] using hy

theorem calm_forM {f : Base → β → Convert PUnit} (hf : ∀ a, Calm sites n fun c => f c a) (l : List β) :
    Calm sites n fun c => l.forM (f c) := by
  induction l with
  | nil => exact inferInstanceAs (Calm sites n fun _ => pure ())
  | cons a l ih => exact inferInstanceAs (Calm sites n fun c => f c a >>= fun _ => l.forM (f c))

instance (f : Base → β → Convert PUnit) [hf : ∀ a, Calm sites n fun c => f c a] (l : List β) :
    Calm sites n fun c => l.forM (f c) := calm_forM hf l

instance (f : Base → β → Convert γ) [hf : ∀ a, Calm sites n fun c => f c a] (l : List β) :
    Calm sites n fun c => l.mapM (f c) := by
  induction l with
  | nil =>
    simp only [List.mapM_nil]
    infer_instance
  | cons a l ih =>
    simp only [List.mapM_cons]
    infer_instance

instance (p : Bool) (e : Fault) : Calm sites n fun _ => Run.require p e := by
  unfold Run.require
  infer_instance

theorem Calm.of_modify (h : ∀ s : Share, ∃ s' : Share, s'.frame = s.frame ∧
    ∀ c, sites c → g c (s.on n c) = s'.on n c) : Calm sites n fun c => modify (g c) := by
  refine .of_known fun s b _ a t _ => ?_
  obtain ⟨s', hs', hall⟩ := h s
  exact ⟨s', hs', fun c hc => Prod.ext rfl (hall c hc)⟩

instance (line : String) : Calm sites n fun _ => (say line : Convert Unit) :=
  .of_modify fun s => ⟨{ s with log := s.log ++ [line] }, rfl, fun c _ => by simp [Share.on]⟩

/-! ## Steps on a layer of the share -/

theorem append_modify (ls : Array Layer) (new : List Layer) (i : Nat) (f : Layer → Layer) :
    (ls ++ new.toArray).modify (ls.size + i) f = ls ++ (new.modify i f).toArray := by
  have hlist (l : List Layer) : (l ++ new).modify (l.length + i) f = l ++ new.modify i f := by
    induction l with
    | nil => simp
    | cons a l ih => simpa [Nat.succ_add] using ih
  refine Array.ext' ?_
  simpa [Array.toList_modify] using hlist ls.toList

theorem append_getD (ls : Array Layer) (new : List Layer) (i : Nat) :
    (ls ++ new.toArray).getD (ls.size + i) {} = new.getD i {} := by
  simp [Array.getElem?_append]

theorem Share.on_edit (s : Share) (c : Base) (i : Nat) (f : Layer → Layer) :
    { s.on n c with layers := (s.on n c).layers.modify (c.layers.size + i) f } =
      { s with layers := s.layers.modify i f }.on n c := by
  simp only [Share.on, append_modify]

theorem calm_edit (i : Nat) {f : Layer → Layer} (hf : ∀ l, header (f l) = header l) :
    Calm sites n fun c => edit (c.layers.size + i) f := by
  refine .of_modify fun s => ⟨{ s with layers := s.layers.modify i f }, ?_, fun c _ => s.on_edit c i f⟩
  simp only [Share.frame, map_modify i (hf _)]

section
variable (i : Nat) (name : String)

instance : Calm sites n fun c => layer (c.layers.size + i) := by
  refine .of_known fun s b _ a t h => ⟨s, rfl, fun c _ => ?_⟩
  have hlayer (c : Base) : (layer (c.layers.size + i)).outcome (s.on n c) =
      (.ok (s.layers.getD i {}), s.on n c) := by
    rw [← append_getD c.layers]
    rfl
  rw [hlayer] at h
  cases h
  exact hlayer c

instance (op : String) : Calm sites n fun c => setOp (c.layers.size + i) op :=
  calm_edit i fun _ => rfl

instance : Calm sites n fun c => attr (c.layers.size + i) name := by
  unfold attr
  have hedit : Calm sites n fun c => edit (c.layers.size + i) (·.touch name) :=
    calm_edit i fun _ => rfl
  infer_instance

instance (f : Attr → Except Fault Attr) :
    Calm sites n fun c => changeAttr (c.layers.size + i) name f := by
  unfold changeAttr
  have hedit (new : Attr) : Calm sites n fun c =>
      (edit (c.layers.size + i) fun l => { l with attrs := l.attrs.insert name new }) :=
    calm_edit i fun _ => rfl
  infer_instance

instance (v : Value) : Calm sites n fun c => setInt (c.layers.size + i) name v := by
  unfold setInt; infer_instance

instance (v : Value) : Calm sites n fun c => setFloat (c.layers.size + i) name v := by
  unfold setFloat; infer_instance

instance (v : Value) : Calm sites n fun c => setFlag (c.layers.size + i) name v := by
  unfold setFlag; infer_instance

instance (k : Int) : Calm sites n fun c => setType (c.layers.size + i) name k := by
  unfold setType; infer_instance

instance (vs : List Value) : Calm sites n fun c => addInts (c.layers.size + i) name vs := by
  unfold addInts; infer_instance

instance (ns : List Int) : Calm sites n fun c => putInts (c.layers.size + i) name ns := by
  unfold putInts; infer_instance

instance (dims : List Int) : Calm sites n fun c => addShape (c.layers.size + i) name dims := by
  unfold addShape; infer_instance

instance (v : Value) : Calm sites n fun c => addSize (c.layers.size + i) name v := by
  unfold addSize
  have hedit (k : Int) (old : Attr) : Calm sites n fun c => (edit (c.layers.size + i) fun l =>
      { l with attrs := l.attrs.insert name (.shape (old.dims ++ [k])) } : Convert Unit) :=
    calm_edit i fun _ => rfl
  infer_instance

instance : Calm sites n fun c => outputDims (c.layers.size + i) := by
  unfold outputDims; infer_instance

instance (vs : List (String × Value)) : Calm sites n fun c => assign (c.layers.size + i) vs := by
  refine .of_known fun s b _ a t h => ?_
  have hassign (c : Base) : (assign (c.layers.size + i) vs).outcome (s.on n c) =
      (((s.layers.getD i {}).assignAll .general vs).1, ({ s with
        layers := s.layers.modify i fun _ => ((s.layers.getD i {}).assignAll .general vs).2 } : Share).on n c) := by
    rw [← s.on_edit, ← append_getD c.layers]
    rfl
  rw [hassign] at h
  refine ⟨{ s with layers := s.layers.modify i fun _ => ((s.layers.getD i {}).assignAll .general vs).2 }, ?_,
    fun c _ => ?_⟩
  · simp only [Share.frame]
    rw [map_modify i (Unseen.assignAll .general (fun _ _ => inferInstance) _)]
  · rw [hassign c, (Prod.mk.inj h).1]

end

theorem calm_write {k : Option String} (hk : k ≠ some "value") (v : Value) :
    Calm sites n fun _ => setWeight (weightKey n k).1 (weightKey n k).2 v := by
  refine .of_modify fun s => ⟨{ s with writes := s.writes ++ [(k, v)], ordinary := ?_ }, rfl, fun c _ => ?_⟩
  · intro p hp
    rcases List.mem_append.mp hp with hp | hp
    · exact s.ordinary p hp
    · rw [List.mem_singleton.mp hp]
      exact hk
  · simp only [Share.on, List.foldl_append]
    rfl

theorem calm_setWeight {w : String} (hw : w ≠ "value") (v : Value) :
    Calm sites n fun _ => (setWeight n w v : Convert Unit) :=
  calm_write (fun e => hw (Option.some.inj e)) v

/-! ## Steps on the frame -/

abbrev Does (sites : Base → Prop) (n : String) (F : Frame) (x : Base → Convert β) (k : Base → β) (F' : Frame) : Prop :=
  Uniform sites n F x fun r F'' => r = k ∧ F'' = F'

variable {F' : Frame}

theorem Uniform.step {k : Base → β} (hx : Does sites n F x k F')
    (hf : Uniform sites n F' (fun c => f c (k c)) Q) : Uniform sites n F (fun c => x c >>= f c) Q := by
  refine hx.bind fun r F'' hr => ?_
  obtain ⟨rfl, rfl⟩ := hr
  exact hf

theorem Does.pure (k : Base → β) : Does sites n F (fun c => Pure.pure (k c)) k F := by
  intro s hs b _ a t _
  exact ⟨k, s, ⟨rfl, hs⟩, fun c _ => rfl⟩

theorem Does.of_modify (h : ∀ s : Share, s.frame = F →
    ∃ s' : Share, s'.frame = F' ∧ ∀ c, sites c → g c (s.on n c) = s'.on n c) :
    Does sites n F (fun c => modify (g c)) (fun _ => ⟨⟩) F' := by
  intro s hs b _ a t _
  obtain ⟨s', hs', hall⟩ := h s hs
  exact ⟨fun _ => ⟨⟩, s', ⟨rfl, hs'⟩, fun c hc => Prod.ext rfl (hall c hc)⟩

theorem newLayer_does : Does sites n F (fun _ => newLayer) (fun c => c.layers.size + F.headers.length)
    { F with headers := F.headers ++ [("", [])] } := by
  intro s hs b _ a t _
  subst hs
  refine ⟨fun c => c.layers.size + s.layers.length, { s with layers := s.layers ++ [{}] }, ⟨?_, ?_⟩, fun c _ => ?_⟩
  · simp [Share.frame]
  · simp [Share.frame, header]
  · refine Prod.ext ?_ ?_
    · show Except.ok (s.on n c).layers.size = _
      simp [Share.on]
    · show { s.on n c with layers := (s.on n c).layers.push {} } = _
      simp [Share.on]

section
variable {hs : List (String × List String)} {name : String} {ins : List String}

theorem edit_does {f : Layer → Layer} {h' : String × List String} (hF : F.headers = hs ++ [(name, ins)])
    (hf : ∀ l, header l = (name, ins) → header (f l) = h') :
    Does sites n F (fun c => edit (c.layers.size + hs.length) f) (fun _ => ())
      { F with headers := hs ++ [h'] } := by
  refine .of_modify fun s hframe => ⟨{ s with layers := s.layers.modify hs.length f }, ?_, fun c _ => s.on_edit c _ f⟩
  subst hframe
  obtain ⟨ls, last, hsplit, rfl, hlast⟩ := List.map_eq_append_iff.mp hF
  obtain ⟨l, rfl, hl⟩ := List.map_eq_singleton_iff.mp hlast
  simp only [Share.frame, hsplit, List.length_map, modify_last, List.map_append, List.map_cons, List.map_nil, hf l hl]

theorem addInput_does (hF : F.headers = hs ++ [(name, ins)]) (x : String) :
    Does sites n F (fun c => addInput (c.layers.size + hs.length) x) (fun _ => ())
      { F with headers := hs ++ [(name, ins ++ [x])] } :=
  edit_does hF fun l hl => by
    cases hl
    rfl

theorem setName_does (hF : F.headers = hs ++ [(name, ins)]) (new : String) :
    Does sites n F (fun c => setName (c.layers.size + hs.length) new) (fun _ => ())
      { F with headers := hs ++ [(new, ins)] } :=
  edit_does hF fun l hl => by
    cases hl
    rfl

end

theorem setLayout_does (layout : Value) : Does sites n F
    (fun _ => modifyOwn fun s => { s with layout := layout }) (fun _ => ())
    { F with layout := some layout } :=
  .of_modify fun s hs => ⟨{ s with layout := some layout }, by rw [← hs]; rfl, fun c _ => rfl⟩

theorem setByName_does (hF : F.named = none) (i : Nat) : Does sites n F (fun c => (modifyOwn fun s =>
      { s with byName := s.byName.insert (stripped n) (c.layers.size + i) } : Convert Unit)) (fun _ => ())
    { F with named := some i } := by
  refine .of_modify fun s hs => ⟨{ s with named := some i }, by rw [← hs]; rfl, fun c _ => ?_⟩
  have hnone : s.named = none := by
    rw [← hs] at hF
    exact hF
  simp [Share.on, hnone]

theorem rename_does (hF : F.output = none) (q : String) : Does sites n F
    (fun _ => (rename n q : Convert Unit)) (fun _ => ()) { F with output := some q } := by
  refine .of_modify fun s hs => ⟨{ s with output := some q }, by rw [← hs]; rfl, fun c _ => ?_⟩
  have hnone : s.output = none := by
    rw [← hs] at hF
    exact hF
  simp [Share.on, hnone]

end

end NetBridge.Source.MxNet
