import NetBridge.Proofs.BlobWriters
import NetBridge.Prototxt.Convert

/-!
# Passes over the arrays of a net

Handing arrays to the nodes of a net, laying them out and naming them treat each node alone: a pass succeeds if it does
so at every node (`loadAll_holds`, `loadAll_succeeds`).
-/

namespace NetBridge.Prototxt

open Run List

/-! ## Nets that differ in their arrays -/

structure Cell where
  arrays : Arrays
  relaid : Option Tensor

def Node.holding (n : Node) (c : Cell) : Node := { n with arrays := c.arrays, relaid := c.relaid }

def Net.holding (g : Net) (a : Nat → Cell) : Net :=
  { g with pool := g.pool.mapIdx fun i n => n.holding (a i) }

variable {c : Cell} {ls : List LayerSpec} {log : List String} {a : Nat → Cell} {s : Session}

variable {g : Net} {i : Nat}

theorem node_holding (h : i < g.pool.size) : (g.holding a).node i = (g.node i).holding (a i) := by
  simp [Net.holding, Net.node, h]

theorem exists_holding (g : Net) (a : Nat → Cell) (i : Nat) : ∃ c, (g.holding a).node i = (g.node i).holding c := by
  by_cases h : i < g.pool.size
  · exact ⟨a i, node_holding h⟩
  · exact ⟨⟨.absent, none⟩, by simp [Net.holding, Net.node, h]; rfl⟩

@[simp] theorem kind_holding : ((g.holding a).node i).kind = (g.node i).kind := by
  obtain ⟨c, h⟩ := exists_holding g a i
  rw [h, Node.holding]

@[simp] theorem sizes_holding : ((g.holding a).node i).sizes = (g.node i).sizes := by
  obtain ⟨c, h⟩ := exists_holding g a i
  rw [h, Node.holding]

@[simp] theorem kindText_holding : ((g.holding a).node i).kindText = (g.node i).kindText := by
  rw [Node.kindText, kind_holding]
  rfl

theorem arrayNames_holding (count : Nat) :
    arrayNames ((g.holding a).node i) count = arrayNames (g.node i) count := by
  obtain ⟨c, h⟩ := exists_holding g a i
  rw [h]
  rfl

theorem onlyParent_holding : (g.holding a).onlyParent i = g.onlyParent i := by
  obtain ⟨c, h⟩ := exists_holding g a i
  rw [Net.onlyParent, h]
  rfl

theorem relaidArray_holding (t : Tensor) (order : List Int) :
    relaidArray (g.holding a) i t order = relaidArray g i t order := by
  simp only [relaidArray, readsImage, Net.inputSizes, kind_holding, sizes_holding, onlyParent_holding]

theorem update_holding {f : Node → Node} (h : ∀ n : Node, f (n.holding (a i)) = n.holding c) :
    (g.holding a).update i f = g.holding (Function.update a i c) := by
  simp only [Net.holding, Net.update, Net.mk.injEq, true_and, and_true]
  refine Array.ext (by simp) fun k hk _ => ?_
  rw [Array.getElem_modify]
  by_cases e : i = k
  · subst e
    simp [h]
  · simp [e, Ne.symm e]


/-! ## Runs that change cells -/

/-- Where a run leaves the net. -/
def after (x : NetRun Unit) (s : Session) : Except Fault Net := (x.outcome s).1.map fun _ => (x.outcome s).2.net

theorem after_eq_ok {x : NetRun Unit} {k : Net} :
    after x s = .ok k ↔ ∃ log, x.outcome s = (.ok (), ⟨k, log⟩) := by
  rw [after]
  generalize x.outcome s = p
  obtain ⟨_ | _, net, log⟩ := p <;> simp [Except.map]

def Acts (g : Net) (x : NetRun Unit) (F : (Nat → Cell) → Except Fault (Nat → Cell)) : Prop :=
  ∀ a log, after x ⟨g.holding a, log⟩ = (F a).map g.holding

variable {n : NetSpec} {written : Table Nat} {β : Type} {x y : NetRun Unit}
    {F G : (Nat → Cell) → Except Fault (Nat → Cell)}

theorem Acts.bind (hx : Acts g x F) (hy : Acts g y G) : Acts g (x >>= fun _ => y) fun a => F a >>= G := by
  intro a log
  have h := hx a log
  simp only [after, outcome_bind] at h ⊢
  generalize x.outcome ⟨g.holding a, log⟩ = p at h ⊢
  obtain ⟨_ | _, net, log₁⟩ := p
  · cases hF : F a with
    | error e =>
      rw [hF] at h
      cases h
      rfl
    | ok b =>
      rw [hF] at h
      cases h
  · obtain ⟨b, hb, rfl⟩ := except_map_eq_ok.mp h.symm
    rw [ok_bind hb]
    exact hy b log₁

theorem Acts.forM {step : β → NetRun Unit} {F : β → (Nat → Cell) → Except Fault (Nat → Cell)} {l : List β}
    (h : ∀ x ∈ l, Acts g (step x) (F x)) : Acts g (l.forM step) fun a => l.foldlM (fun a x => F x a) a := by
  induction l with
  | nil => exact fun _ _ => rfl
  | cons x l ih =>
    simp only [foldlM_cons]
    exact (h x (.head _)).bind (ih fun y hy => h y (.tail _ hy))

/-! ## One cell after the other -/

def put (o : Option Nat) (f : Nat → Cell → Except Fault Cell) (a : Nat → Cell) : Except Fault (Nat → Cell) :=
  o.elim (.ok a) fun i => (f i (a i)).map (Function.update a i)

def putAll (l : List β) (place : β → Option Nat) (f : β → Nat → Cell → Except Fault Cell) (a : Nat → Cell) :
    Except Fault (Nat → Cell) :=
  l.foldlM (fun a x => put (place x) (f x) a) a

section
variable {l : List β} {place : β → Option Nat} {f : β → Nat → Cell → Except Fault Cell} {b : Nat → Cell}

theorem putAll_eq_ok (hnodup : (l.filterMap place).Nodup) : putAll l place f a = .ok b ↔
    (∀ x ∈ l, ∀ i, place x = some i → f x i (a i) = .ok (b i)) ∧ ∀ i ∉ l.filterMap place, b i = a i := by
  induction l generalizing a with
  | nil =>
    constructor
    · rintro ⟨⟩
      exact ⟨nofun, fun _ _ => rfl⟩
    · rintro ⟨-, h⟩
      obtain rfl : b = a := funext fun i => h i nofun
      rfl
  | cons x l ih =>
    rw [putAll, foldlM_cons, except_bind_eq_ok, put]
    cases hx : place x with
    | none =>
      rw [filterMap_cons_none hx] at hnodup ⊢
      simpa [hx, putAll] using ih hnodup
    | some i =>
      rw [filterMap_cons_some hx] at hnodup ⊢
      obtain ⟨hi, hnodup⟩ := nodup_cons.mp hnodup
      have hne {y : β} {k : Nat} (hy : y ∈ l) (hk : place y = some k) : k ≠ i :=
        fun e => hi (e ▸ mem_filterMap.mpr ⟨y, hy, hk⟩)
      constructor
      · rintro ⟨_, hput, h⟩
        obtain ⟨c, hc, rfl⟩ := except_map_eq_ok.mp hput
        obtain ⟨h, hout⟩ := (ih hnodup).mp h
        refine ⟨fun y hy k hk => ?_, fun k hk => ?_⟩
        · rcases mem_cons.mp hy with rfl | hy
          · cases hx.symm.trans hk
            rw [hc, hout i hi, Function.update_self]
          · simpa [hne hy hk] using h y hy k hk
        · rw [mem_cons, not_or] at hk
          rw [hout k hk.2, Function.update_of_ne hk.1]
      · rintro ⟨h, hout⟩
        refine ⟨_, except_map_eq_ok.mpr ⟨b i, h x (.head _) i hx, rfl⟩,
          (ih hnodup).mpr ⟨fun y hy k hk => ?_, fun k hk => ?_⟩⟩
        · rw [Function.update_of_ne (hne hy hk)]
          exact h y (.tail _ hy) k hk
        · by_cases e : k = i
          · rw [e, Function.update_self]
          · rw [Function.update_of_ne e, hout k (by simp [e, hk])]

theorem exists_putAll (hnodup : (l.filterMap place).Nodup)
    (h : ∀ x ∈ l, ∀ i, place x = some i → ∃ c, f x i (a i) = .ok c) : ∃ b, putAll l place f a = .ok b := by
  induction l generalizing a with
  | nil => exact ⟨a, rfl⟩
  | cons x l ih =>
    simp only [putAll, foldlM_cons, put]
    cases hx : place x with
    | none =>
      rw [filterMap_cons_none hx] at hnodup
      exact ih hnodup fun y hy => h y (.tail _ hy)
    | some i =>
      rw [filterMap_cons_some hx] at hnodup
      obtain ⟨hi, hnodup⟩ := nodup_cons.mp hnodup
      obtain ⟨c, hc⟩ := h x (.head _) i hx
      rw [Option.elim, hc]
      refine ih (a := Function.update a i c) hnodup fun y hy k hk => ?_
      have hne : k ≠ i := fun e => hi (e ▸ mem_filterMap.mpr ⟨y, hy, hk⟩)
      rw [Function.update_of_ne hne]
      exact h y (.tail _ hy) k hk

end

/-! ## The passes -/

def relaidCell (g : Net) (i : Nat) (c : Cell) : Except Fault Cell :=
  match c.arrays with
  | .absent => .ok c
  | .listed ts =>
    if isRelaid (g.node i).kind then do
      let order ← layoutOrder (g.node i).kindText
      let t ← orFault Fault.position ts[0]?
      return { c with relaid := some (← relaidArray g i t order) }
    else .ok c
  | .named t =>
    if isRelaid (g.node i).kind then .error Fault.key
    else if t.isEmpty then .ok c
    else .error Fault.property

def settledCell (c : Cell) : Except Fault Cell :=
  match c.relaid with
  | none => .ok c
  | some t =>
    match c.arrays with
    | .absent => .error Fault.kind
    | .listed [] => .error Fault.position
    | .listed (_ :: ts) => .ok ⟨.listed (t :: ts), none⟩
    | .named _ => .error Fault.key

def namedCell (g : Net) (i : Nat) (c : Cell) : Except Fault Cell :=
  let entries : Option (List Value) := match c.arrays with
    | .absent => none
    | .listed ts => some (ts.map Value.array)
    | .named t => some (t.keys.map Value.text)
  match entries with
  | none => .ok c
  | some vs => do
    match ← arrayNames (g.node i) vs.length with
    | none => return c
    | some names =>
      require (names.length == vs.length)
      return { c with arrays := .named (Table.ofList (names.zip vs)) }

def taken (four : Bool) (g : Net) (i : Nat) (ts : List Tensor) : Except Fault (List Tensor) :=
  if four then trimAxes (g.node i).kind ts else .ok ts

section
variable {α : Type} {log : List String}

theorem after_current (f : Net → NetRun Unit) (s : Session) : after (current >>= f) s = after (f s.net) s := rfl

theorem put_same (i : Nat) (a : Nat → Cell) :
    ((.ok (a i) : Except Fault Cell).map (Function.update a i)).map g.holding = .ok (g.holding a) := by
  simp [Except.map]

theorem after_store {e : Except Fault α} {f : α → Node → Node} {c : α → Cell}
    (h : ∀ x (n : Node), f x (n.holding (a i)) = n.holding (c x)) :
    after (liftM e >>= fun x => change fun g => g.update i (f x)) ⟨g.holding a, log⟩ =
      ((e.map c).map (Function.update a i)).map g.holding := by
  cases e with
  | error e => rfl
  | ok x => exact congrArg Except.ok (update_holding (h x))

theorem inject_acts (four : Bool) (name : String) (ts : List Tensor) :
    Acts g (inject four name ts) (put (g.byName.find? name) fun i c =>
      (taken four g i ts).map fun us => { c with arrays := .listed us }) := by
  intro a log
  unfold inject put
  rw [after_current, show (g.holding a).byName = g.byName from rfl]
  cases g.byName.find? name with
  | none => rfl
  | some i =>
    simp only [after_current, kind_holding]
    cases four with
    | true => exact after_store fun us n => rfl
    | false => exact congrArg Except.ok (update_holding fun n => rfl)

theorem relay_acts (hi : i < g.pool.size) : Acts g (relay i) (put (some i) (relaidCell g)) := by
  intro a log
  unfold relay put relaidCell
  rw [after_current]
  simp only [kind_holding, kindText_holding, relaidArray_holding, Option.elim]
  rw [show ((g.holding a).node i).arrays = (a i).arrays by rw [node_holding hi]; rfl]
  cases harrays : (a i).arrays with
  | absent => exact (put_same i a).symm
  | listed ts =>
    by_cases hk : isRelaid (g.node i).kind = true
    · simp only [hk]
      cases layoutOrder (g.node i).kindText with
      | error e => rfl
      | ok order =>
        cases orFault Fault.position ts[0]? with
        | error e => rfl
        | ok t => exact after_store fun t' n => by rw [← harrays]; rfl
    · simp only [hk, put_same, if_false, Bool.false_eq_true]
      split <;> rfl
  | named t =>
    by_cases hk : isRelaid (g.node i).kind = true
    · simp only [hk]
      rfl
    · cases ht : t.isEmpty <;> simp only [hk, ht]
      · rfl
      · exact (put_same i a).symm

theorem settle_acts (hi : i < g.pool.size) : Acts g (settle i) (put (some i) fun _ => settledCell) := by
  intro a log
  unfold settle put settledCell
  rw [after_current, node_holding hi]
  dsimp only [Node.holding, Option.elim]
  cases (a i).relaid with
  | none => exact (put_same i a).symm
  | some t =>
    cases (a i).arrays with
    | absent => rfl
    | named ts => rfl
    | listed ts =>
      cases ts with
      | nil => rfl
      | cons u ts => exact congrArg Except.ok (update_holding fun n => rfl)

theorem name_acts (hi : i < g.pool.size) : Acts g (nameNode i) (put (some i) (namedCell g)) := by
  intro a log
  unfold nameNode put namedCell
  rw [after_current]
  simp only [arrayNames_holding, Option.elim]
  rw [show ((g.holding a).node i).arrays = (a i).arrays by rw [node_holding hi]; rfl]
  cases (a i).arrays with
  | absent => exact (put_same i a).symm
  | listed ts | named ts =>
    dsimp only
    generalize List.map _ _ = vs
    cases arrayNames (g.node i) vs.length with
    | error e => rfl
    | ok names =>
      cases names with
      | none => exact (put_same i a).symm
      | some names =>
        show after (Run.require (names.length == vs.length) >>= fun _ => change _) _ =
          ((require (names.length == vs.length) >>= fun _ => pure _).map _).map g.holding
        cases names.length == vs.length with
        | true => exact congrArg Except.ok (update_holding fun n => rfl)
        | false => rfl

end

/-! ## All nodes -/

structure Net.Sound (g : Net) : Prop where
  nodup : g.members.Nodup
  inside : ∀ i ∈ g.members, i < g.pool.size
  named : ∀ a i, g.byName.find? a = some i → i ∈ g.members ∧ (g.node i).name = a

def Net.Bare (g : Net) : Prop := ∀ i, (g.node i).arrays = .absent ∧ (g.node i).relaid = none

theorem Net.Bare.holding {g : Net} (h : g.Bare) : g.holding (fun _ => ⟨.absent, none⟩) = g := by
  cases g with
  | mk name pool members byName =>
    simp only [Net.holding, Net.mk.injEq, true_and, and_true]
    refine Array.ext (by simp) fun i hi hi' => ?_
    obtain ⟨harrays, hrelaid⟩ := h i
    simp only [Net.node, Array.getD_eq_getD_getElem?, Array.getElem?_eq_getElem hi'] at harrays hrelaid
    rw [Array.getElem_mapIdx]
    generalize pool[i] = n at harrays hrelaid
    cases n
    cases harrays
    cases hrelaid
    rfl

def loadAll (st : Store) : NetRun Unit := do
  injectAll st
  relayAll true
  nameAll

def given (ts : List Tensor) : Cell := ⟨.listed ts, none⟩

def laidOut (g : Net) (i : Nat) (ts : List Tensor) : Except Fault Cell := relaidCell g i (given ts) >>= settledCell

def held (four : Bool) (g : Net) (i : Nat) (ts : List Tensor) : Except Fault Arrays :=
  (taken four g i ts >>= laidOut g i >>= namedCell g i).map Cell.arrays

section
variable {g : Net} (hg : g.Sound) {st : Store}
include hg

theorem nodup_places {entries : List (String × List Tensor)} (hnames : (entries.map (·.1)).Nodup) :
    (entries.filterMap fun p => g.byName.find? p.1).Nodup := by
  induction entries with
  | nil => exact List.nodup_nil
  | cons p entries ih =>
    obtain ⟨hp, hnames⟩ := List.nodup_cons.mp hnames
    cases hi : g.byName.find? p.1 with
    | none =>
      rw [List.filterMap_cons_none (f := fun p : String × List Tensor => g.byName.find? p.1) hi]
      exact ih hnames
    | some i =>
      rw [List.filterMap_cons_some (f := fun p : String × List Tensor => g.byName.find? p.1) hi, List.nodup_cons]
      refine ⟨fun hmem => ?_, ih hnames⟩
      obtain ⟨q, hq, hqi⟩ := List.mem_filterMap.mp hmem
      have hsame : p.1 = q.1 := (hg.named _ _ hi).2.symm.trans (hg.named _ _ hqi).2
      exact hp (List.mem_map.mpr ⟨q, hq, hsame.symm⟩)

def injected (g : Net) (st : Store) : (Nat → Cell) → Except Fault (Nat → Cell) :=
  putAll st.arrays (fun p => g.byName.find? p.1) fun p i c =>
    (taken st.fourAxes g i p.2).map fun us => { c with arrays := .listed us }

def pass (g : Net) (f : Nat → Cell → Except Fault Cell) : (Nat → Cell) → Except Fault (Nat → Cell) :=
  putAll g.members some fun _ => f

theorem pass_acts {step : Nat → NetRun Unit} {f : Nat → Cell → Except Fault Cell}
    (h : ∀ i, i < g.pool.size → Acts g (step i) (put (some i) f)) : Acts g (g.members.forM step) (pass g f) :=
  .forM fun i hi => h i (hg.inside i hi)

variable {f h : Nat → Cell → Except Fault Cell} {b : Nat → Cell}

theorem pass_eq_ok : pass g f a = .ok b ↔ (∀ i ∈ g.members, f i (a i) = .ok (b i)) ∧ ∀ i ∉ g.members, b i = a i := by
  have hnodup : (g.members.filterMap some).Nodup := by simpa using hg.nodup
  simpa [pass] using putAll_eq_ok (f := fun _ => f) (a := a) (b := b) hnodup

theorem exists_pass (h : ∀ i ∈ g.members, ∃ c, f i (a i) = .ok c) : ∃ b, pass g f a = .ok b := by
  refine exists_putAll (by simpa using hg.nodup) fun i hi k hk => ?_
  cases hk
  exact h i hi

theorem pass_pass : (pass g f a >>= pass g h) = .ok b ↔ pass g (fun i c => f i c >>= h i) a = .ok b := by
  rw [except_bind_eq_ok, pass_eq_ok hg]
  constructor
  · rintro ⟨c, hc, hb⟩
    rw [pass_eq_ok hg] at hc hb
    exact ⟨fun i hi => (ok_bind (hc.1 i hi)).trans (hb.1 i hi), fun i hi => (hb.2 i hi).trans (hc.2 i hi)⟩
  · rintro ⟨hb, hout⟩
    obtain ⟨c, hc⟩ := exists_pass hg (f := f) fun i hi => (bind_cases (hb i hi)).imp fun _ h => h.1
    have hmid := (pass_eq_ok hg).mp hc
    refine ⟨c, hc, (pass_eq_ok hg).mpr ⟨fun i hi => ?_, fun i hi => (hout i hi).trans (hmid.2 i hi).symm⟩⟩
    rw [← hb i hi, ok_bind (hmid.1 i hi)]

theorem loadAll_acts (st : Store) : Acts g (loadAll st) fun a =>
    injected g st a >>= fun a => (pass g (relaidCell g) a >>= pass g fun _ => settledCell) >>= pass g (namedCell g) :=
  (Acts.forM fun p _ => inject_acts st.fourAxes p.1 p.2).bind
    (Acts.bind ((pass_acts hg fun _ => relay_acts).bind (pass_acts hg fun _ => settle_acts))
      (pass_acts hg fun _ => name_acts))

variable (hbare : g.Bare)
include hbare

theorem loadAll_eq_ok {k : Net} : (∃ log', (loadAll st).outcome ⟨g, log⟩ = (.ok (), ⟨k, log'⟩)) ↔
    ∃ b₀ b, injected g st (fun _ => ⟨.absent, none⟩) = .ok b₀ ∧
      pass g (fun i c => relaidCell g i c >>= settledCell >>= namedCell g i) b₀ = .ok b ∧ g.holding b = k := by
  have hacts := loadAll_acts hg st (fun _ => ⟨.absent, none⟩) log
  rw [hbare.holding] at hacts
  have hpasses {b₀ b : Nat → Cell} :
      ((pass g (relaidCell g) b₀ >>= pass g fun _ => settledCell) >>= pass g (namedCell g)) = .ok b ↔
        pass g (fun i c => relaidCell g i c >>= settledCell >>= namedCell g i) b₀ = .ok b := by
    rw [← pass_pass hg, except_bind_eq_ok, except_bind_eq_ok]
    simp only [pass_pass hg]
  rw [← after_eq_ok, hacts, except_map_eq_ok]
  constructor
  · rintro ⟨b, hb, rfl⟩
    obtain ⟨b₀, hinject, hb⟩ := bind_cases hb
    exact ⟨b₀, b, hinject, hpasses.mp hb, rfl⟩
  · rintro ⟨b₀, b, hinject, hb, rfl⟩
    exact ⟨b, (ok_bind hinject).trans (hpasses.mpr hb), rfl⟩

variable (hnames : (st.arrays.map (·.1)).Nodup)
include hnames

theorem loadAll_holds (hrun : (loadAll st).outcome ⟨g, log⟩ = (.ok (), s))
    {p : String × List Tensor} (hp : p ∈ st.arrays) (hi : g.byName.find? p.1 = some i) :
    held st.fourAxes g i p.2 = .ok (s.net.node i).arrays := by
  obtain ⟨b₀, b, hinject, hpass, hnet⟩ := (loadAll_eq_ok hg hbare).mp ⟨_, hrun⟩
  rw [injected, putAll_eq_ok (nodup_places hg hnames)] at hinject
  obtain ⟨us, hus, hcell⟩ := except_map_eq_ok.mp (hinject.1 p hp i hi)
  obtain ⟨hmem, -⟩ := hg.named _ _ hi
  have hdone := ((pass_eq_ok hg).mp hpass).1 i hmem
  rw [← hcell] at hdone
  rw [held, ok_bind hus, ← hnet, node_holding (hg.inside i hmem)]
  exact except_map_eq_ok.mpr ⟨_, hdone, rfl⟩

theorem loadAll_succeeds (hok : ∀ p ∈ st.arrays, ∀ i, g.byName.find? p.1 = some i →
      ∃ x, held st.fourAxes g i p.2 = .ok x) (log : List String) :
    ∃ s, (loadAll st).outcome ⟨g, log⟩ = (.ok (), s) := by
  have htreated : ∀ p ∈ st.arrays, ∀ i, g.byName.find? p.1 = some i → ∃ us c, taken st.fourAxes g i p.2 = .ok us ∧
      (laidOut g i us >>= namedCell g i) = .ok c := by
    intro p hp i hi
    obtain ⟨x, hx⟩ := hok p hp i hi
    obtain ⟨c, hc, -⟩ := except_map_eq_ok.mp hx
    obtain ⟨d, hd, hc⟩ := bind_cases hc
    obtain ⟨us, hus, hd⟩ := bind_cases hd
    exact ⟨us, c, hus, (ok_bind hd).trans hc⟩
  obtain ⟨b₀, hinject⟩ : ∃ b, injected g st (fun _ => ⟨.absent, none⟩) = .ok b := by
    refine exists_putAll (nodup_places hg hnames) fun p hp i hi => ?_
    obtain ⟨us, _, hus, -⟩ := htreated p hp i hi
    exact ⟨_, except_map_eq_ok.mpr ⟨us, hus, rfl⟩⟩
  obtain ⟨b, hpass⟩ := exists_pass hg (a := b₀) (f := fun i c => relaidCell g i c >>= settledCell >>= namedCell g i)
    fun i _ => by
      have hput := (putAll_eq_ok (nodup_places hg hnames)).mp hinject
      by_cases hi : i ∈ st.arrays.filterMap fun p => g.byName.find? p.1
      · obtain ⟨p, hp, hi⟩ := mem_filterMap.mp hi
        obtain ⟨us, c, hus, hc⟩ := htreated p hp i hi
        obtain ⟨_, hus', hcell⟩ := except_map_eq_ok.mp (hput.1 p hp i hi)
        cases hus.symm.trans hus'
        exact ⟨c, hcell ▸ hc⟩
      · rw [hput.2 i hi]
        exact ⟨_, rfl⟩
  obtain ⟨log', hrun⟩ := (loadAll_eq_ok hg hbare).mpr ⟨b₀, b, hinject, hpass, rfl⟩
  exact ⟨_, hrun⟩

end

/-! ## Nets that were built -/

section
variable {g' h : Net}

theorem relinked_readBlob (hr : g.Relinked h) {l : LayerSpec} {b : String}
    (hrun : readBlob written h l i b = .ok g') : g.Relinked g' := by
  by_cases hown : b = l.name
  · have hrequire : require (decide (b ≠ l.name)) = .error Fault.condition := by simp [require, hown]
    rw [readBlob, hrequire] at hrun
    cases hrun
  · rw [readBlob_eq_bind hown, except_bind_eq_ok] at hrun
    obtain ⟨p, -, hlink⟩ := hrun
    unfold linkWriter at hlink
    split at hlink
    · cases hlink
      exact hr.connect i p 0
    · rename_i w _
      cases hlink
      refine foldlRecOn w.tops.zipIdx _ hr fun k hk e _ => ?_
      split
      · exact hk.connect i p _
      · exact hk

theorem relinked_wire (hr : g.Relinked h) (hrun : wire written h ls = .ok g') : g.Relinked g' := by
  induction ls generalizing written h with
  | nil =>
    cases hrun
    exact hr
  | cons l ls ih =>
    rw [wire, except_bind_eq_ok] at hrun
    obtain ⟨i, -, hrun⟩ := hrun
    obtain ⟨k, hread, hrun⟩ := bind_cases hrun
    exact ih (foldlM_keeps (fun _ _ _ hone hk => relinked_readBlob hk hone) hread hr) hrun

structure Net.SameArrays (g h : Net) : Prop where
  members : h.members = g.members
  byName : h.byName = g.byName
  size : h.pool.size = g.pool.size
  nodes : ∀ k, (h.node k).name = (g.node k).name ∧ (h.node k).arrays = (g.node k).arrays ∧
    (h.node k).relaid = (g.node k).relaid

theorem Net.SameArrays.resize (hg : g.SameArrays h) (i : Nat) (s : Sizes) :
    g.SameArrays (h.update i fun n => { n with sizes := some s }) := by
  refine ⟨hg.members, hg.byName, (size_update ..).trans hg.size, fun k => ?_⟩
  rw [Net.node_update]
  split
  · exact hg.nodes k
  · exact hg.nodes k

theorem setSizes_sameArrays (i : Nat) : Keeps (fun s : Session => g.SameArrays s.net) (setSizes i) := by
  refine .bind (.bind (.get fun s hs => hs) fun _ => keeps_pure) fun h => ?_
  refine .bind keeps_lift fun dims => .bind keeps_lift fun d => .bind keeps_lift fun sizes => ?_
  exact .modify fun s hs => hs.resize i sizes

theorem setAllSizes_sameArrays (engine : Option Engine) :
    Keeps (fun s : Session => g.SameArrays s.net) (setAllSizes engine) := by
  have hcurrent : Keeps (fun s : Session => g.SameArrays s.net) current :=
    .bind (.get fun s hs => hs) fun _ => keeps_pure
  refine .bind hcurrent fun h => ?_
  cases engine with
  | none => exact keeps_forM fun i _ => setSizes_sameArrays i
  | some e =>
    refine .bind (.modify fun s hs => ?_) fun _ =>
      keeps_forM fun i _ => .bind hcurrent fun h => ?_
    · refine foldlRecOn e.blobs.entries _ hs fun h hh b _ => ?_
      dsimp only
      split
      · exact hh.resize _ _
      · exact hh
    · split
      · exact setSizes_sameArrays i
      · exact keeps_pure

theorem layerNodes_eq_ok {own : List Node} (h : ls.mapM layerNode = .ok own) : own = ls.map LayerSpec.node := by
  rw [← map_of_mapM (fun l x hx => ?_) h, map_id]
  obtain ⟨kind, hkind, -⟩ := bind_cases hx
  exact Except.ok.inj (hx.symm.trans (layerNode_eq hkind))

theorem startNet_sound : (startNet n ls).Sound ∧ (startNet n ls).Bare := by
  refine ⟨⟨?_, ?_, ?_⟩, fun k => ?_⟩
  · exact nodup_range
  · exact fun i hi => mem_range.mp hi
  · rw [members_startNet]
    intro a i hi
    obtain ⟨hlt, hname⟩ := find_startNet hi
    exact ⟨mem_range.mpr hlt, hname⟩
  · cases h : (inputNodes n ++ ls.map LayerSpec.node)[k]? with
    | none =>
      simp only [startNet, Net.ofNodes, Net.node, Array.getD_eq_getD_getElem?, getElem?_toArray, h]
      exact ⟨rfl, rfl⟩
    | some x =>
      rw [node_startNet h]
      rcases mem_append.mp (mem_of_getElem? h) with hx | hx
      · obtain ⟨y, -, rfl⟩ := mem_map.mp hx
        exact ⟨rfl, rfl⟩
      · obtain ⟨y, -, rfl⟩ := mem_map.mp hx
        exact ⟨rfl, rfl⟩

theorem Net.SameArrays.sound (hs : g.SameArrays h) (hg : g.Sound ∧ g.Bare) : h.Sound ∧ h.Bare := by
  obtain ⟨⟨hnodup, hinside, hnamed⟩, hbare⟩ := hg
  refine ⟨⟨?_, ?_, ?_⟩, fun i => ?_⟩
  · rwa [hs.members]
  · rwa [hs.members, hs.size]
  · intro a i hi
    rw [hs.byName] at hi
    rw [hs.members, (hs.nodes i).1]
    exact hnamed a i hi
  · rw [(hs.nodes i).2.1, (hs.nodes i).2.2]
    exact hbare i

theorem build_sound {o : BuildOptions} (hrun : build n o = .ok g) : g.Sound ∧ g.Bare := by
  unfold build at hrun
  extract_lets rest at hrun
  obtain ⟨m, hrun⟩ : ∃ m, rest m = .ok g := by
    split at hrun
    · obtain ⟨m, -, hrun⟩ := bind_cases hrun
      exact ⟨m, hrun⟩
    · exact ⟨n, hrun⟩
  obtain ⟨ls, -, hnodes⟩ := bind_cases hrun
  obtain ⟨own, hown, hlinks⟩ := bind_cases hnodes
  obtain rfl := layerNodes_eq_ok hown
  obtain ⟨k, hwire, hsizes⟩ := bind_cases hlinks
  have hlinked : (startNet m ls).Relinked k := relinked_wire ⟨rfl, rfl, rfl, fun _ => rfl⟩ hwire
  obtain ⟨_, hout, ⟨⟩⟩ := bind_cases hsizes
  have hok : (setAllSizes o.engine).outcome { net := k } = (.ok (), ((setAllSizes o.engine).outcome { net := k }).2) :=
    Prod.ext hout rfl
  exact (setAllSizes_sameArrays o.engine _ ⟨hlinked.members, hlinked.byName, hlinked.size, fun k =>
    by rw [hlinked.nodes k]; exact ⟨rfl, rfl, rfl⟩⟩ _ _ hok).sound startNet_sound

end

end NetBridge.Prototxt
