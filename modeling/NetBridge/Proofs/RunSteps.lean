import NetBridge.Fault
import Mathlib.Data.List.Forall2

/-!
# Successful runs

`Run.Triple P x Q` says of a run: started where `P` holds, if it succeeds, `Q` holds of its result and of the state it
leaves. `Run.Succeeds P x Q` says moreover that it does.
-/

namespace NetBridge

open List

variable {α β : Type} {l : List α} {a : α}

section
variable {γ : Type} {x : Except Fault α} {f : α → Except Fault β} {bs : List β}

theorem except_bind_eq_ok {c : β} :
    (x >>= f) = .ok c ↔ ∃ a, x = .ok a ∧ f a = .ok c := by
  cases x with
  | error e => simp [bind, Except.bind]
  | ok a => simp [bind, Except.bind]

theorem bind_cases {c : β} (h : (x >>= f) = .ok c) : ∃ a, x = .ok a ∧ f a = .ok c := except_bind_eq_ok.mp h

theorem ok_bind (h : x = .ok a) : (x >>= f) = f a := by
  rw [h]
  rfl

variable {b : β}

theorem except_map_eq_ok {f : α → β} : x.map f = .ok b ↔ ∃ a, x = .ok a ∧ f a = b := by
  cases x <;> simp [Except.map]

theorem mapM_eq_ok_iff : l.mapM f = .ok bs ↔ List.Forall₂ (fun a b => f a = .ok b) l bs := by
  induction l generalizing bs with
  | nil => simp [pure, Except.pure]
  | cons a l ih =>
    simp only [mapM_cons, except_bind_eq_ok, forall₂_cons_left_iff, ih]
    simp [pure, Except.pure, eq_comm]

theorem mapM_eq_map {r : α → β} (h : ∀ a ∈ l, f a = .ok (r a)) : l.mapM f = .ok (l.map r) :=
  mapM_eq_ok_iff.mpr (forall₂_map_right_iff.mpr (forall₂_same.mpr h))

theorem map_of_mapM {p : α → γ} {q : β → γ} (hf : ∀ a b, f a = .ok b → q b = p a) (h : l.mapM f = .ok bs) :
    bs.map q = l.map p := by
  rw [mapM_eq_ok_iff] at h
  induction h with
  | nil => rfl
  | cons hb _ ih => rw [map_cons, map_cons, hf _ _ hb, ih]

theorem exists_of_mem_mapM (h : l.mapM f = .ok bs) (hb : b ∈ bs) : ∃ a ∈ l, f a = .ok b := by
  rw [mapM_eq_ok_iff] at h
  induction h with
  | nil => cases hb
  | cons hc _ ih =>
    rcases mem_cons.mp hb with rfl | hb
    · exact ⟨_, .head _, hc⟩
    · obtain ⟨a', ha', h'⟩ := ih hb
      exact ⟨a', .tail _ ha', h'⟩

theorem orFault_eq_ok {f : Fault} {o : Option α} : orFault f o = .ok a ↔ o = some a := by
  cases o <;> simp [orFault]

end

namespace Run

variable {σ : Type} {s s' : σ} {b : α} {e : Except Fault α} {x : Run σ α} {f : α → Run σ β} {P : σ → Prop}
  {Q : α → σ → Prop} {R : β → σ → Prop}

theorem not_mem_done {done todo : List α} (hnodup : l.Nodup) (h : l = done ++ a :: todo) :
    a ∉ done := by
  rw [h] at hnodup
  exact fun ha => (nodup_append.mp hnodup).2.2 a ha a (.head _) rfl

/-- Goes through a list: `C done todo` holds with nothing done if it holds at the end and each element leads on. -/
theorem split_induction {C : List α → List α → Prop} (hend : C l [])
    (hstep : ∀ done a todo, l = done ++ a :: todo → C (done ++ [a]) todo → C done (a :: todo)) : C [] l := by
  suffices hsuf : ∀ todo done, l = done ++ todo → C done todo from hsuf l [] rfl
  intro todo
  induction todo with
  | nil =>
    intro done hl
    rw [append_nil] at hl
    exact hl ▸ hend
  | cons a todo ih => exact fun done hl => hstep done a todo hl (ih _ (by rw [hl]; simp))

def Triple (P : σ → Prop) (x : Run σ α) (Q : α → σ → Prop) : Prop :=
  ∀ s, P s → ∀ a s', x.outcome s = (.ok a, s') → Q a s'

abbrev Keeps (P : σ → Prop) (x : Run σ α) : Prop := Triple P x fun _ => P

abbrev Gets (P : σ → Prop) (x : Run σ α) (p : α → Prop) : Prop := Triple P x fun a s => P s ∧ p a

/-! ## What a step does -/

theorem outcome_bind (x : Run σ α) (f : α → Run σ β) (s : σ) :
    (x >>= f).outcome s = match x.outcome s with
      | (.ok a, s') => (f a).outcome s'
      | (.error e, s') => (.error e, s') := by
  simp only [outcome, ExceptT.run_bind, StateT.run_bind]
  cases h : StateT.run (ExceptT.run x) s with
  | mk r s' => cases r <;> rfl

theorem bind_eq_ok {s'' : σ} {b : β} :
    (x >>= f).outcome s = (.ok b, s'') ↔
      ∃ a s', x.outcome s = (.ok a, s') ∧ (f a).outcome s' = (.ok b, s'') := by
  rw [outcome_bind]
  cases h : x.outcome s with
  | mk r s' =>
    cases r with
    | error e => simp
    | ok a =>
      constructor
      · intro hb
        exact ⟨a, s', rfl, hb⟩
      · rintro ⟨a', t, ha, hb⟩
        obtain ⟨rfl, rfl⟩ : a = a' ∧ s' = t := by simpa using ha
        exact hb

theorem step_cases {b : β} (h : (x >>= f).outcome s = (.ok b, s')) :
    ∃ a t, x.outcome s = (.ok a, t) ∧ (f a).outcome t = (.ok b, s') :=
  bind_eq_ok.mp h

theorem bind_ok {r : Except Fault β × σ} (hx : x.outcome s = (.ok a, s')) (hf : (f a).outcome s' = r) :
    (x >>= f).outcome s = r := by
  rw [outcome_bind, hx]
  exact hf

theorem pure_eq_ok : (pure a : Run σ α).outcome s = (.ok b, s') ↔ a = b ∧ s = s' := by
  rw [show (pure a : Run σ α).outcome s = (.ok a, s) from rfl]
  simp

theorem lift_eq_ok : (liftM e : Run σ α).outcome s = (.ok b, s') ↔ e = .ok b ∧ s = s' := by
  rw [show (liftM e : Run σ α).outcome s = (e, s) from rfl]
  simp

theorem lift_ok (h : e = .ok b) : (liftM e : Run σ α).outcome s = (.ok b, s) := lift_eq_ok.mpr ⟨h, rfl⟩

theorem lift_bind_ok {r : Except Fault β × σ} (he : e = .ok a) (hf : (f a).outcome s = r) :
    ((liftM e : Run σ α) >>= f).outcome s = r :=
  bind_ok (lift_ok he) hf

theorem lift_bind_eq_ok {b : β} :
    ((liftM e : Run σ α) >>= f).outcome s = (.ok b, s') ↔ ∃ a, e = .ok a ∧ (f a).outcome s = (.ok b, s') := by
  rw [bind_eq_ok]
  constructor
  · rintro ⟨a, _, ha, h⟩
    obtain ⟨he, rfl⟩ := lift_eq_ok.mp ha
    exact ⟨a, he, h⟩
  · rintro ⟨a, ha, h⟩
    exact ⟨a, s, lift_ok ha, h⟩

theorem lift_cases {b : β} (h : ((liftM e : Run σ α) >>= f).outcome s = (.ok b, s')) :
    ∃ a, e = .ok a ∧ (f a).outcome s = (.ok b, s') :=
  lift_bind_eq_ok.mp h

/-! ## Rules -/

theorem Triple.bind (hx : Triple P x Q) (hf : ∀ a, Triple (Q a) (f a) R) : Triple P (x >>= f) R := by
  intro s hs b s'' h
  obtain ⟨a, s', ha, hb⟩ := step_cases h
  exact hf a s' (hx s hs a s' ha) b s'' hb

variable {p : α → Prop} {P' : σ → Prop} {Q' : α → σ → Prop} {I : List α → List α → σ → Prop}

theorem Triple.bind_of (hx : Gets P x p) (hf : ∀ a, p a → Triple P (f a) R) : Triple P (x >>= f) R :=
  hx.bind fun a s hs => hf a hs.2 s hs.1

theorem Triple.skip (hf : ∀ a, Triple (fun _ => True) (f a) R) : Triple (fun _ => True) (x >>= f) R :=
  .bind (fun _ _ _ _ _ => trivial) hf

theorem Triple.known (hx : x.outcome s = (.ok a, s')) (hf : Triple (· = s') (f a) R) :
    Triple (· = s) (x >>= f) R := by
  rintro _ rfl b s'' h
  obtain ⟨a', t, ha, hb⟩ := step_cases h
  rw [hx] at ha
  cases ha
  exact hf _ rfl b s'' hb

theorem Triple.pure (h : ∀ s, P s → Q a s) : Triple P (pure a) Q := by
  intro s hs b s' he
  obtain ⟨rfl, rfl⟩ := pure_eq_ok.mp he
  exact h s hs

theorem Triple.throw {e : Fault} : Triple P (throw e) Q := by
  intro s _ a s' h
  cases h

theorem Triple.lift (h : ∀ a, e = .ok a → ∀ s, P s → Q a s) : Triple P (liftM e) Q := by
  intro s hs b s' hr
  obtain ⟨he, rfl⟩ := lift_eq_ok.mp hr
  exact h b he s hs

theorem keeps_lift : Keeps P (liftM e) := .lift fun _ _ _ hs => hs

theorem keeps_pure : Keeps P (Pure.pure a) := .pure fun _ hs => hs

theorem Triple.get {Q : σ → σ → Prop} (h : ∀ s, P s → Q s s) : Triple P get Q := by
  intro s hs a s' he
  cases he
  exact h s hs

theorem Triple.modify {g : σ → σ} {Q : PUnit → σ → Prop} (h : ∀ s, P s → Q ⟨⟩ (g s)) :
    Triple P (modify g) Q := by
  intro s hs a s' he
  cases he
  exact h s hs

theorem Triple.set {t : σ} {Q : PUnit → σ → Prop} (h : ∀ s, P s → Q ⟨⟩ t) : Triple P (set t) Q := by
  intro s hs a s' he
  cases he
  exact h s hs

theorem Triple.imp (hx : Triple P x Q) (hP : ∀ s, P' s → P s) (hQ : ∀ a s, Q a s → Q' a s) : Triple P' x Q' :=
  fun s hs a s' h => hQ a s' (hx s (hP s hs) a s' h)

theorem Triple.post (hx : Triple P x Q) (hQ : ∀ a s, Q a s → Q' a s) : Triple P x Q' :=
  hx.imp (fun _ h => h) hQ

theorem Triple.pre (hx : Triple P x Q) (hP : ∀ s, P' s → P s) : Triple P' x Q :=
  hx.imp hP fun _ _ h => h

theorem Triple.each (h : ∀ s, P s → Triple (· = s) x fun a s' => s' = s ∧ p a) : Gets P x p := by
  intro s hs a s' hrun
  obtain ⟨rfl, hp⟩ := h s hs s rfl a s' hrun
  exact ⟨hs, hp⟩

theorem Triple.exists {ι : Type} {P : ι → σ → Prop} (h : ∀ i, Triple (P i) x Q) :
    Triple (fun s => ∃ i, P i s) x Q := by
  rintro s ⟨i, hs⟩
  exact h i s hs

theorem keeps_require {c : Bool} {e : Fault} : Keeps P (Run.require c e) := by
  unfold Run.require
  split
  · exact keeps_pure
  · exact .throw

/-! ## Loops -/

theorem mapM_cons_eq_ok {bs : List β} :
    ((a :: l).mapM f).outcome s = (.ok bs, s') ↔ ∃ b t cs,
      (f a).outcome s = (.ok b, t) ∧ (l.mapM f).outcome t = (.ok cs, s') ∧ bs = b :: cs := by
  rw [mapM_cons]
  constructor
  · intro h
    obtain ⟨b, t, hb, h⟩ := step_cases h
    obtain ⟨cs, t', hc, h⟩ := step_cases h
    obtain ⟨rfl, rfl⟩ := pure_eq_ok.mp h
    exact ⟨b, t, cs, hb, hc, rfl⟩
  · rintro ⟨b, t, cs, hb, hc, rfl⟩
    exact bind_eq_ok.mpr ⟨b, t, hb, bind_eq_ok.mpr ⟨cs, s', hc, pure_eq_ok.mpr ⟨rfl, rfl⟩⟩⟩

theorem Triple.mapM {I : List α → List β → σ → Prop}
    (h : ∀ done a todo bs, l = done ++ a :: todo →
      Triple (I done bs) (f a) fun b => I (done ++ [a]) (bs ++ [b])) :
    Triple (I [] []) (l.mapM f) fun bs => I l bs := by
  refine split_induction (C := fun done todo => ∀ bs, Triple (I done bs) (todo.mapM f) fun cs => I l (bs ++ cs))
    (fun bs => ?_) (fun done a todo hl ih bs s hs cs s' he => ?_) []
  · rw [mapM_nil]
    exact .pure fun s hs => by rwa [append_nil]
  · obtain ⟨b, t, ds, hb, hd, rfl⟩ := mapM_cons_eq_ok.mp he
    have := ih (bs ++ [b]) t (h done a todo bs hl s hs b t hb) ds s' hd
    simpa only [append_assoc, singleton_append] using this

theorem Triple.filterM {f : α → Run σ Bool} (h : ∀ done a todo kept, l = done ++ a :: todo →
      Triple (I done kept) (f a) fun b => I (done ++ [a]) (if b then kept ++ [a] else kept)) :
    Triple (I [] []) (l.filterM f) fun kept => I l kept := by
  refine (split_induction (C := fun done todo => ∀ kept, Triple (I done kept) (todo.filterAuxM f kept.reverse)
    fun acc =>
    I l acc.reverse) (fun kept => ?_) (fun done a todo hl ih kept => ?_) []).bind fun acc => .pure fun _ hs => hs
  · exact .pure fun s hs => by rwa [reverse_reverse]
  · refine (h done a todo kept hl).bind fun b => ?_
    have hrest := ih (if b then kept ++ [a] else kept)
    cases b <;> simpa using hrest

theorem Triple.forM {f : α → Run σ PUnit} {I : List α → σ → Prop}
    (h : ∀ done a todo, l = done ++ a :: todo → Triple (I done) (f a) fun _ => I (done ++ [a])) :
    Triple (I []) (l.forM f) fun _ => I l :=
  split_induction (C := fun done todo => Triple (I done) (todo.forM f) fun _ => I l) keeps_pure
    fun done a todo hl ih => (h done a todo hl).bind fun _ => ih

theorem keeps_forM {f : α → Run σ PUnit} (h : ∀ a ∈ l, Keeps P (f a)) : Keeps P (l.forM f) := by
  have := Triple.forM (l := l) fun done a todo hl => h a (by rw [hl]; simp)
  exact this

/-! ## Runs that stay in a relation -/

class Stays (R : σ → σ → Prop) (x : Run σ α) : Prop where
  keeps : ∀ s, Keeps (R s) x

section
variable {R : σ → σ → Prop}

instance (a : α) : Stays R (pure a : Run σ α) := ⟨fun _ => keeps_pure⟩

instance (e : Fault) : Stays R (throw e : Run σ α) := ⟨fun _ => .throw⟩

instance (e : Fault) (f : α → Run σ β) : Stays R (throw e >>= f) :=
  ⟨fun _ => Triple.bind (Q := fun _ _ => False) .throw fun _ _ h => h.elim⟩

instance (e : Except Fault α) : Stays R (liftM e : Run σ α) := ⟨fun _ => keeps_lift⟩

instance : Stays R (get : Run σ σ) := ⟨fun _ => .get fun _ h => h⟩

instance (c : Bool) (e : Fault) : Stays R (Run.require c e) := ⟨fun _ => keeps_require⟩

theorem Stays.bind (hx : Stays R x) (hf : ∀ a, Stays R (f a)) : Stays R (x >>= f) :=
  ⟨fun s => (hx.keeps s).bind fun a => (hf a).keeps s⟩

theorem Stays.step [hx : Stays R x] (hf : ∀ a, Stays R (f a)) : Stays R (x >>= f) :=
  hx.bind hf

theorem Stays.known {e : Except Fault α} (hf : ∀ a, e = .ok a → Stays R (f a)) : Stays R (liftM e >>= f) :=
  ⟨fun s => .bind_of (.lift fun _ ha _ h => ⟨h, ha⟩) fun a ha => (hf a ha).keeps s⟩

instance (x : Run σ α) (f : α → Run σ β) [Stays R x] [hf : ∀ a, Stays R (f a)] : Stays R (x >>= f) := .step hf

-- a step whose result is not used; without this instance the search doubles at every such step
instance (x : Run σ α) (y : Run σ β) [hx : Stays R x] [hy : Stays R y] : Stays R (x >>= fun _ => y) :=
  hx.bind fun _ => hy

instance (c : Prop) [Decidable c] (x y : Run σ α) [hx : Stays R x] [hy : Stays R y] :
    Stays R (if c then x else y) := by
  split
  · exact hx
  · exact hy

theorem Stays.forM {f : α → Run σ PUnit} (hf : ∀ a, Stays R (f a)) : Stays R (l.forM f) :=
  ⟨fun s => keeps_forM fun a _ => (hf a).keeps s⟩

instance (l : List α) (f : α → Run σ PUnit) [hf : ∀ a, Stays R (f a)] : Stays R (l.forM f) := .forM hf

instance (l : List α) (f : α → Run σ β) [hf : ∀ a, Stays R (f a)] : Stays R (l.mapM f) :=
  ⟨fun s => .mapM (I := fun _ _ => R s) fun _ a _ _ _ => (hf a).keeps s⟩

theorem Stays.mono {S : σ → σ → Prop} (hx : Stays S x) (hrefl : ∀ s, S s s)
    (h : ∀ s t u, R s t → S t u → R s u) : Stays R x :=
  ⟨fun s t ht a u hu => h s t u ht (hx.keeps t t (hrefl t) a u hu)⟩

end

abbrev Looks (x : Run σ α) : Prop := Stays (fun s s' => s' = s) x

theorem keeps_looking [hx : Looks x] : Keeps P x := by
  intro s hs a s' h
  rw [hx.keeps s s rfl a s' h]
  exact hs

theorem Triple.look [Looks x] (hf : ∀ a, Triple P (f a) R) : Triple P (x >>= f) R := keeps_looking.bind hf

/-! ## Runs that do not stop -/

def Succeeds (P : σ → Prop) (x : Run σ α) (Q : α → σ → Prop) : Prop :=
  ∀ s, P s → ∃ a s', x.outcome s = (.ok a, s') ∧ Q a s'

theorem Succeeds.bind (hx : Succeeds P x Q) (hf : ∀ a, Succeeds (Q a) (f a) R) :
    Succeeds P (x >>= f) R := by
  intro s hs
  obtain ⟨a, t, ha, ht⟩ := hx s hs
  obtain ⟨b, u, hb, hu⟩ := hf a t ht
  exact ⟨b, u, bind_eq_ok.mpr ⟨a, t, ha, hb⟩, hu⟩

theorem Succeeds.pure (h : ∀ s, P s → Q a s) : Succeeds P (pure a) Q := fun s hs => ⟨a, s, rfl, h s hs⟩

theorem Succeeds.filterM {f : α → Run σ Bool} (h : ∀ done a todo kept, l = done ++ a :: todo →
      Succeeds (I done kept) (f a) fun b => I (done ++ [a]) (if b then kept ++ [a] else kept)) :
    Succeeds (I [] []) (l.filterM f) fun kept => I l kept := by
  refine (split_induction (C := fun done todo => ∀ kept, Succeeds (I done kept) (todo.filterAuxM f kept.reverse)
    fun acc => I l acc.reverse) (fun kept => ?_) (fun done a todo hl ih kept => ?_) []).bind fun acc =>
      .pure fun _ hs => hs
  · exact .pure fun s hs => by rwa [reverse_reverse]
  · refine (h done a todo kept hl).bind fun b => ?_
    have hrest := ih (if b then kept ++ [a] else kept)
    cases b <;> simpa using hrest

theorem Succeeds.forM {f : α → Run σ PUnit} {I : List α → σ → Prop}
    (h : ∀ done a todo, l = done ++ a :: todo → Succeeds (I done) (f a) fun _ => I (done ++ [a])) :
    Succeeds (I []) (l.forM f) fun _ => I l :=
  split_induction (C := fun done todo => Succeeds (I done) (todo.forM f) fun _ => I l) (.pure fun _ hs => hs)
    fun done a todo hl ih => (h done a todo hl).bind fun _ => ih

theorem foldlM_keeps {ε : Type} {f : β → α → Except ε β} {P : β → Prop}
    (hf : ∀ b a b', f b a = .ok b' → P b → P b') {b b' : β} (h : l.foldlM f b = .ok b')
    (hb : P b) : P b' := by
  induction l generalizing b with
  | nil =>
    cases h
    exact hb
  | cons a l ih =>
    rw [foldlM_cons] at h
    cases ha : f b a with
    | error e => rw [ha] at h; cases h
    | ok c =>
      rw [ha] at h
      exact ih h (hf b a c ha hb)

/-! ## Runs on given data -/

theorem outcome_of_isSome {x : Run σ Unit} (h : (x.outcome s).1.toOption.isSome = true) :
    x.outcome s = (.ok (), (x.outcome s).2) := by
  generalize x.outcome s = p at h ⊢
  obtain ⟨_ | _, _⟩ := p
  · cases h
  · rfl

/-- A result, or another value if there is none. -/
def resultD (e : Except Fault α) (d : α) : α := e.toOption.getD d

theorem eq_resultD {e : Except Fault α} {d : α} (h : e.toOption.isSome = true) : e = .ok (resultD e d) := by
  cases e with
  | error e => cases h
  | ok a => rfl

end Run

end NetBridge
