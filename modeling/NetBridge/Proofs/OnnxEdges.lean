import NetBridge.Source.Onnx
import NetBridge.Proofs.GraphEdges
import Mathlib.Tactic.Common

/-!
# Edges between operations

Operations are connected by the tensors that one writes and another reads. Each is connected to every reader listed
behind it, and of those before it to the last one only (`connected_iff`).
-/

namespace NetBridge.Source.Onnx

open Graph Wiring List Operation

def Operation.names (ops : List Operation) : List String := ops.map (·.name)

def Model.placeOf (m : Model) (a : String) : Nat := (Operation.names m.operations).idxOf a

def Reads (ops : List Operation) (b t : String) : Prop := ∃ o ∈ ops, o.name = b ∧ t ∈ o.inputs

def Writes (ops : List Operation) (a t : String) : Prop := ∃ o ∈ ops, o.name = a ∧ t ∈ o.outputs

/-! ## What a step does to the graph -/

namespace Wiring

variable (w : Wiring) (n t : String)

theorem graph_read : (w.read n t).graph =
    match w.writers.find? t with
    | some a => (w.graph.connect a n).1
    | none => w.graph := by
  simp only [read]
  cases w.writers.find? t <;> rfl

theorem graph_write : (w.write n t).graph =
    match w.readers.find? t with
    | some b => (w.graph.connect n b).1
    | none => w.graph := by
  simp only [write]
  cases w.readers.find? t <;> rfl

@[simp] theorem writers_read : (w.read n t).writers = w.writers := by
  simp only [read]
  cases w.writers.find? t <;> rfl

@[simp] theorem readers_read : (w.read n t).readers = w.readers.insert t n := by
  simp only [read]
  cases w.writers.find? t <;> rfl

@[simp] theorem writers_write : (w.write n t).writers = w.writers.insert t n := by
  simp only [write]
  cases w.readers.find? t <;> rfl

@[simp] theorem readers_write : (w.write n t).readers = w.readers := by
  simp only [write]
  cases w.readers.find? t <;> rfl

@[simp] theorem keys_read : (w.read n t).graph.vertices.keys = w.graph.vertices.keys := by
  rw [graph_read]
  cases w.writers.find? t with
  | none => rfl
  | some a => exact keys_connect ..

@[simp] theorem keys_write : (w.write n t).graph.vertices.keys = w.graph.vertices.keys := by
  rw [graph_write]
  cases w.readers.find? t with
  | none => rfl
  | some b => exact keys_connect ..

variable {w n t} {a b : String}

theorem edges_read :
    (a ∈ (w.read n t).graph.sourcesOf b ↔
      a ∈ w.graph.sourcesOf b ∨ b = n ∧ w.writers.find? t = some a ∧ w.graph.Joins a n) ∧
    (b ∈ (w.read n t).graph.targetsOf a ↔
      b ∈ w.graph.targetsOf a ∨ b = n ∧ w.writers.find? t = some a ∧ w.graph.Joins a n) := by
  rw [graph_read]
  cases w.writers.find? t with
  | none => simp
  | some c =>
    simp only [mem_sourcesOf_connect, mem_targetsOf_connect]
    grind

theorem edges_write :
    (a ∈ (w.write n t).graph.sourcesOf b ↔
      a ∈ w.graph.sourcesOf b ∨ a = n ∧ w.readers.find? t = some b ∧ w.graph.Joins n b) ∧
    (b ∈ (w.write n t).graph.targetsOf a ↔
      b ∈ w.graph.targetsOf a ∨ a = n ∧ w.readers.find? t = some b ∧ w.graph.Joins n b) := by
  rw [graph_write]
  cases w.readers.find? t with
  | none => simp
  | some c =>
    simp only [mem_sourcesOf_connect, mem_targetsOf_connect]
    grind

end Wiring

/-! ## Reading and writing one tensor -/

section
variable {place : String → Nat} {R W : String → String → Prop} {w : Wiring} {n t : String}

def Leads (place : String → Nat) (R W : String → String → Prop) (a b t : String) : Prop :=
  W a t ∧ R b t ∧ ∀ c, R c t → place b < place c → place a < place c

/-- The tables and edges once operations have read the tensors `R` and written the tensors `W`. -/
structure Tracks (place : String → Nat) (R W : String → String → Prop) (w : Wiring) : Prop where
  reads : ∀ b t, R b t → b ∈ w.graph.vertices.keys
  writes : ∀ a t, W a t → a ∈ w.graph.vertices.keys
  writer : ∀ t a, w.writers.find? t = some a ↔ W a t
  reader : ∀ t b, w.readers.find? t = some b ↔ R b t ∧ ∀ c, R c t → place c ≤ place b
  sources : ∀ a b, a ∈ w.graph.sourcesOf b ↔ a ≠ b ∧ ∃ t, Leads place R W a b t
  targets : ∀ a b, b ∈ w.graph.targetsOf a ↔ a ≠ b ∧ ∃ t, Leads place R W a b t

def Latest (place : String → Nat) (w : Wiring) (n : String) : Prop :=
  n ∈ w.graph.vertices.keys ∧ ∀ c ∈ w.graph.vertices.keys, c ≠ n → place c < place n

variable {c : String}

theorem Latest.le (h : Latest place w n) (hc : c ∈ w.graph.vertices.keys) : place c ≤ place n := by
  by_cases e : c = n
  · exact Nat.le_of_eq (congrArg place e)
  · exact Nat.le_of_lt (h.2 c hc e)

theorem Latest.eq (h : Latest place w n) (hc : c ∈ w.graph.vertices.keys) (hle : place n ≤ place c) : c = n := by
  by_contra e
  exact absurd (h.2 c hc e) (Nat.not_lt.mpr hle)

theorem Tracks.read (h : Tracks place R W w) (hn : Latest place w n) (hW : ∀ s, ¬W n s) :
    Tracks place (fun b s => R b s ∨ b = n ∧ s = t) W (w.read n t) := by
  -- no edge is lost, as the writers so far are listed before the new reader
  have hedge : ∀ a b, (a ≠ b ∧ ∃ s, Leads place R W a b s) ∨ (b = n ∧ W a t ∧ w.graph.Joins a n) ↔
      a ≠ b ∧ ∃ s, Leads place (fun b s => R b s ∨ b = n ∧ s = t) W a b s := by
    intro a b
    constructor
    · rintro (⟨hne, s, ha, hb, hbehind⟩ | ⟨rfl, ha, hne, -, -⟩)
      · refine ⟨hne, s, ha, .inl hb, fun c hc hlt => ?_⟩
        rcases hc with hc | ⟨rfl, -⟩
        · exact hbehind c hc hlt
        · exact hn.2 a (h.writes a s ha) fun e => hW s (e ▸ ha)
      · refine ⟨hne, t, ha, .inr ⟨rfl, rfl⟩, fun c hc hlt => ?_⟩
        rcases hc with hc | ⟨rfl, -⟩
        · exact absurd (hn.le (h.reads c t hc)) (Nat.not_le.mpr hlt)
        · exact absurd hlt (Nat.lt_irrefl _)
    · rintro ⟨hne, s, ha, hb, hbehind⟩
      rcases hb with hb | ⟨rfl, rfl⟩
      · exact .inl ⟨hne, s, ha, hb, fun c hc hlt => hbehind c (.inl hc) hlt⟩
      · exact .inr ⟨rfl, ha, hne, h.writes a s ha, hn.1⟩
  refine ⟨?_, ?_, ?_, ?_, ?_, ?_⟩
  · rintro b s (hb | ⟨rfl, -⟩)
    · rw [keys_read]
      exact h.reads b s hb
    · rw [keys_read]
      exact hn.1
  · intro a s ha
    rw [keys_read]
    exact h.writes a s ha
  · intro s a
    rw [writers_read]
    exact h.writer s a
  · intro s b
    rw [readers_read, Table.find?_insert]
    by_cases hs : t = s
    · subst hs
      rw [if_pos rfl, Option.some.injEq]
      constructor
      · rintro rfl
        refine ⟨.inr ⟨rfl, rfl⟩, fun c hc => ?_⟩
        rcases hc with hc | ⟨rfl, -⟩
        · exact hn.le (h.reads c t hc)
        · exact Nat.le_refl _
      · rintro ⟨hb, hlast⟩
        rcases hb with hb | ⟨rfl, -⟩
        · exact (hn.eq (h.reads b t hb) (hlast n (.inr ⟨rfl, rfl⟩))).symm
        · rfl
    · have hother : ∀ c, (R c s ∨ c = n ∧ s = t) ↔ R c s := fun c => or_iff_left fun e => hs e.2.symm
      simp only [if_neg hs, h.reader, hother]
  · intro a b
    rw [edges_read.1, h.sources, h.writer, hedge]
  · intro a b
    rw [edges_read.2, h.targets, h.writer, hedge]

theorem Tracks.write (h : Tracks place R W w) (hn : Latest place w n) (hW : ∀ a, W a t → a = n) :
    Tracks place R (fun a s => W a s ∨ a = n ∧ s = t) (w.write n t) := by
  -- of the readers so far, all of them listed before the writer, only the last gets an edge
  have hedge : ∀ a b, (a ≠ b ∧ ∃ s, Leads place R W a b s) ∨
      (a = n ∧ (R b t ∧ ∀ c, R c t → place c ≤ place b) ∧ w.graph.Joins n b) ↔
        a ≠ b ∧ ∃ s, Leads place R (fun a s => W a s ∨ a = n ∧ s = t) a b s := by
    intro a b
    constructor
    · rintro (⟨hne, s, ha, hb, hbehind⟩ | ⟨rfl, ⟨hb, hlast⟩, hne, -, -⟩)
      · exact ⟨hne, s, .inl ha, hb, hbehind⟩
      · refine ⟨hne, t, .inr ⟨rfl, rfl⟩, hb, fun c hc hlt => ?_⟩
        exact absurd (hlast c hc) (Nat.not_le.mpr hlt)
    · rintro ⟨hne, s, ha, hb, hbehind⟩
      rcases ha with ha | ⟨rfl, rfl⟩
      · exact .inl ⟨hne, s, ha, hb, hbehind⟩
      · refine .inr ⟨rfl, ⟨hb, fun c hc => ?_⟩, hne, hn.1, h.reads b s hb⟩
        by_contra hle
        have hlt := hbehind c hc (Nat.not_le.mp hle)
        exact absurd (hn.le (h.reads c s hc)) (Nat.not_le.mpr hlt)
  refine ⟨?_, ?_, ?_, ?_, ?_, ?_⟩
  · intro b s hb
    rw [keys_write]
    exact h.reads b s hb
  · intro a s ha
    rw [keys_write]
    rcases ha with ha | ⟨rfl, -⟩
    · exact h.writes a s ha
    · exact hn.1
  · intro s a
    rw [writers_write, Table.find?_insert]
    by_cases hs : t = s
    · subst hs
      rw [if_pos rfl, Option.some.injEq]
      constructor
      · rintro rfl
        exact .inr ⟨rfl, rfl⟩
      · rintro (ha | ⟨rfl, -⟩)
        · exact (hW a ha).symm
        · rfl
    · rw [if_neg hs, h.writer]
      exact (or_iff_left fun e => hs e.2.symm).symm
  · intro s b
    rw [readers_write]
    exact h.reader s b
  · intro a b
    rw [edges_write.1, h.sources, h.reader, hedge]
  · intro a b
    rw [edges_write.2, h.targets, h.reader, hedge]

/-! ## The turn of an operation -/

theorem Tracks.congr {R' W' : String → String → Prop} (h : Tracks place R W w) (hR : ∀ b t, R' b t ↔ R b t)
    (hW : ∀ a t, W' a t ↔ W a t) : Tracks place R' W' w := by
  obtain rfl : R' = R := funext fun b => funext fun t => propext (hR b t)
  obtain rfl : W' = W := funext fun a => funext fun t => propext (hW a t)
  exact h

theorem Tracks.readAll (h : Tracks place R W w) (ts : List String) (hn : Latest place w n) (hW : ∀ s, ¬W n s) :
    Tracks place (fun b s => R b s ∨ b = n ∧ s ∈ ts) W (ts.foldl (fun w t => w.read n t) w) ∧
      (ts.foldl (fun w t => w.read n t) w).graph.vertices.keys = w.graph.vertices.keys := by
  induction ts generalizing R w with
  | nil => exact ⟨h.congr (by simp) (by simp), rfl⟩
  | cons t ts ih =>
    have hkeys := keys_read w n t
    obtain ⟨htracks, hrest⟩ := ih (h.read hn hW) (by unfold Latest; rw [hkeys]; exact hn)
    refine ⟨htracks.congr (fun b s => ?_) (by simp), hrest.trans hkeys⟩
    rw [mem_cons]
    tauto

theorem Tracks.writeAll (h : Tracks place R W w) (ts : List String) (hn : Latest place w n)
    (hW : ∀ a, ∀ t ∈ ts, W a t → a = n) :
    Tracks place R (fun a s => W a s ∨ a = n ∧ s ∈ ts) (ts.foldl (fun w t => w.write n t) w) ∧
      (ts.foldl (fun w t => w.write n t) w).graph.vertices.keys = w.graph.vertices.keys := by
  induction ts generalizing W w with
  | nil => exact ⟨h.congr (by simp) (by simp), rfl⟩
  | cons t ts ih =>
    have hkeys := keys_write w n t
    obtain ⟨htracks, hrest⟩ := ih (h.write hn fun a => hW a t (.head _))
      (by unfold Latest; rw [hkeys]; exact hn) (fun a s hs ha => by
        rcases ha with ha | ⟨rfl, -⟩
        · exact hW a s (.tail _ hs) ha
        · rfl)
    refine ⟨htracks.congr (by simp) (fun a s => ?_), hrest.trans hkeys⟩
    rw [mem_cons]
    tauto

theorem Tracks.add (h : Tracks place R W w) (hn : n ∉ w.graph.vertices.keys) (role : Role) :
    Tracks place R W { w with graph := w.graph.add n role } := by
  have hfresh : ∀ a b, (∃ t, Leads place R W a b t) → n ≠ a ∧ n ≠ b := by
    rintro a b ⟨t, ha, hb, -⟩
    exact ⟨fun e => hn (e ▸ h.writes a t ha), fun e => hn (e ▸ h.reads b t hb)⟩
  refine ⟨?_, ?_, h.writer, h.reader, ?_, ?_⟩
  · intro b t hb
    exact mem_keys_add.mpr (.inr (h.reads b t hb))
  · intro a t ha
    exact mem_keys_add.mpr (.inr (h.writes a t ha))
  · intro a b
    rw [sourcesOf_add]
    by_cases e : n = b
    · rw [if_pos e]
      exact iff_of_false not_mem_nil fun hl => (hfresh a b hl.2).2 e
    · rw [if_neg e]
      exact h.sources a b
  · intro a b
    rw [targetsOf_add]
    by_cases e : n = a
    · rw [if_pos e]
      exact iff_of_false not_mem_nil fun hl => (hfresh a b hl.2).1 e
    · rw [if_neg e]
      exact h.targets a b

end

/-! ## All operations -/

/-- Operations have names, different ones, and no tensor is written by two of them. -/
structure Model.Plain (m : Model) : Prop where
  named : ∀ o ∈ m.operations, o.name ≠ ""
  nodup : (Operation.names m.operations).Nodup
  once : ∀ o ∈ m.operations, ∀ o' ∈ m.operations, ∀ t ∈ o.outputs, t ∈ o'.outputs → o.name = o'.name

def InnerReads (m : Model) (ops : List Operation) (b t : String) : Prop := t ∉ m.inputs ∧ Reads ops b t

def InnerWrites (m : Model) (ops : List Operation) (a t : String) : Prop := t ∉ m.outputs ∧ Writes ops a t

section
variable {m : Model} {done todo : List Operation} {o : Operation} {w : Wiring}

variable {t a : String}

theorem innerReads_concat {b : String} : InnerReads m (done ++ [o]) b t ↔
    InnerReads m done b t ∨ b = o.name ∧ t ∈ o.inputs.filter fun t => !m.inputs.contains t := by
  simp only [InnerReads, Reads]
  grind

theorem innerWrites_concat : InnerWrites m (done ++ [o]) a t ↔
    InnerWrites m done a t ∨ a = o.name ∧ t ∈ o.outputs.filter fun t => !m.outputs.contains t := by
  simp only [InnerWrites, Writes]
  grind

theorem mem_names_of_writes (h : Writes done a t) : a ∈ names done := by
  obtain ⟨o, ho, rfl, -⟩ := h
  exact mem_map_of_mem ho

theorem Model.Plain.name_fresh (hm : m.Plain) (hsplit : m.operations = done ++ o :: todo) :
    o.name ∉ names done := by
  have hnd := hm.nodup
  rw [hsplit, names, map_append, map_cons, nodup_middle, nodup_cons] at hnd
  exact fun h => hnd.1 (mem_append_left _ h)

theorem Model.Plain.placeOf_lt (hm : m.Plain) (hsplit : m.operations = done ++ o :: todo) {c : String}
    (hc : c ∈ names done) : m.placeOf c < m.placeOf o.name := by
  have hnames : names m.operations = names done ++ o.name :: names todo := by
    rw [hsplit, names, map_append]
    rfl
  have hself : m.placeOf o.name = (names done).length := by
    rw [Model.placeOf, hnames, idxOf_append_of_notMem (hm.name_fresh hsplit), idxOf_cons_self, Nat.add_zero]
  rw [hself, Model.placeOf, hnames, idxOf_append_of_mem hc]
  exact idxOf_lt_length_of_mem hc

theorem Tracks.place (hm : m.Plain) (hsplit : m.operations = done ++ o :: todo)
    (h : Tracks m.placeOf (InnerReads m done) (InnerWrites m done) w)
    (hkeys : w.graph.vertices.keys = names done) (i : Nat) :
    Tracks m.placeOf (InnerReads m (done ++ [o])) (InnerWrites m (done ++ [o])) (m.place w i o) ∧
      (m.place w i o).graph.vertices.keys = names (done ++ [o]) := by
  have ho : o ∈ m.operations := by rw [hsplit]; simp
  have hlabel : o.label i = o.name := by
    have hname : o.name.isEmpty = false := by simpa using hm.named o ho
    simp [label, hname]
  have hfresh : o.name ∉ w.graph.vertices.keys := hkeys ▸ hm.name_fresh hsplit
  let role : Role := {
    type := o.type
    weights := o.inputs.filter m.stored.contains
    inputs := o.inputs.filter m.inputs.contains
    outputs := o.outputs.filter m.outputs.contains }
  let w₁ : Wiring := { w with graph := w.graph.add o.name role }
  have hadd : Tracks m.placeOf (InnerReads m done) (InnerWrites m done) w₁ := h.add hfresh role
  have hkeys₁ : w₁.graph.vertices.keys = names (done ++ [o]) := by
    rw [names, map_append]
    refine (Table.keys_insert ..).trans ?_
    rw [if_neg hfresh, hkeys]
    rfl
  have hlatest : Latest m.placeOf w₁ o.name := by
    refine ⟨mem_keys_add.mpr (.inl rfl), fun c hc hne => ?_⟩
    have hc' : c ∈ w.graph.vertices.keys := (mem_keys_add.mp hc).resolve_left hne
    exact hm.placeOf_lt hsplit (hkeys ▸ hc')
  obtain ⟨hread, hkeys₂⟩ := hadd.readAll (o.inputs.filter fun t => !m.inputs.contains t) hlatest
    fun s hs => hm.name_fresh hsplit (mem_names_of_writes hs.2)
  obtain ⟨hwrite, hkeys₃⟩ := hread.writeAll (o.outputs.filter fun t => !m.outputs.contains t)
    (by unfold Latest; rw [hkeys₂]; exact hlatest) (by
      rintro a t ht ⟨-, o', ho', rfl, ht'⟩
      have hmem : o' ∈ m.operations := by rw [hsplit]; exact mem_append_left _ ho'
      exact hm.once o' hmem o ho t ht' (mem_of_mem_filter ht))
  have hplace : m.place w i o = (o.outputs.filter fun t => !m.outputs.contains t).foldl (fun w t => w.write o.name t)
      ((o.inputs.filter fun t => !m.inputs.contains t).foldl (fun w t => w.read o.name t) w₁) := by
    simp only [Model.place, hlabel]
    rfl
  rw [hplace]
  exact ⟨hwrite.congr (fun _ _ => innerReads_concat) fun _ _ => innerWrites_concat, hkeys₃.trans (hkeys₂.trans hkeys₁)⟩

theorem Tracks.placeAll (hm : m.Plain) (hsplit : m.operations = done ++ todo)
    (h : Tracks m.placeOf (InnerReads m done) (InnerWrites m done) w)
    (hkeys : w.graph.vertices.keys = names done) (i : Nat) :
    Tracks m.placeOf (InnerReads m m.operations) (InnerWrites m m.operations) (m.placeAll w i todo) := by
  induction todo generalizing done w i with
  | nil =>
    rw [append_nil] at hsplit
    rw [hsplit]
    exact h
  | cons o todo ih =>
    obtain ⟨hone, hkeysOne⟩ := h.place hm hsplit hkeys i
    exact ih (by rw [hsplit]; simp) hone hkeysOne (i + 1)

theorem tracks_start (m : Model) : Tracks m.placeOf (InnerReads m []) (InnerWrites m []) {} := by
  have hreads : ∀ b t, ¬InnerReads m [] b t := by
    rintro b t ⟨-, o, ho, -⟩
    cases ho
  have hwrites : ∀ a t, ¬InnerWrites m [] a t := by
    rintro a t ⟨-, o, ho, -⟩
    cases ho
  refine ⟨fun b t h => absurd h (hreads b t), fun a t h => absurd h (hwrites a t), fun t a => ?_, fun t b => ?_,
    fun a b => ?_, fun a b => ?_⟩
  · exact iff_of_false (by simp) (hwrites a t)
  · exact iff_of_false (by simp) fun h => hreads b t h.1
  · exact iff_of_false not_mem_nil fun ⟨_, t, h⟩ => hwrites a t h.1
  · exact iff_of_false not_mem_nil fun ⟨_, t, h⟩ => hwrites a t h.1

end

/-- Two operations are connected by an inner tensor that the first writes and the second reads, unless another
reader is listed between the second and the first. -/
theorem connected_iff {m : Model} (hm : m.Plain) (a b : String) :
    (b ∈ (graphOf m).1.targetsOf a ↔ a ∈ (graphOf m).1.sourcesOf b) ∧
      (a ∈ (graphOf m).1.sourcesOf b ↔ a ≠ b ∧ ∃ t, t ∉ m.inputs ∧ t ∉ m.outputs ∧
        Writes m.operations a t ∧ Reads m.operations b t ∧
          ∀ c, Reads m.operations c t → m.placeOf b < m.placeOf c → m.placeOf a < m.placeOf c) := by
  have h := (tracks_start m).placeAll hm (nil_append _).symm rfl 0
  refine ⟨(h.targets a b).trans (h.sources a b).symm, (h.sources a b).trans (and_congr_right fun _ => ?_)⟩
  refine exists_congr fun t => ?_
  constructor
  · rintro ⟨⟨hout, ha⟩, ⟨hin, hb⟩, hbehind⟩
    exact ⟨hin, hout, ha, hb, fun c hc => hbehind c ⟨hin, hc⟩⟩
  · rintro ⟨hin, hout, ha, hb, hbehind⟩
    exact ⟨⟨hout, ha⟩, ⟨hin, hb⟩, fun c hc => hbehind c hc.2⟩

def lateModel : Model where
  operations := [{ name := "b", type := "Relu", inputs := ["t"], outputs := ["y"] },
    { name := "c", type := "Relu", inputs := ["t"], outputs := ["z"] },
    { name := "a", type := "Relu", inputs := ["x"], outputs := ["t"] }]
  inputs := ["x"]
  outputs := ["y", "z"]

theorem plain_lateModel : lateModel.Plain := by
  refine ⟨?_, ?_, ?_⟩ <;> decide

theorem connected_iff_late : lateModel.Plain ∧ "a" ∈ (graphOf lateModel).1.sourcesOf "c" ∧
    "c" ∈ (graphOf lateModel).1.targetsOf "a" := by
  obtain ⟨hboth, hiff⟩ := connected_iff plain_lateModel "a" "c"
  have hlast : ∀ o ∈ lateModel.operations, "t" ∈ o.inputs → lateModel.placeOf "c" < lateModel.placeOf o.name →
      lateModel.placeOf "a" < lateModel.placeOf o.name := by decide
  have hedge : "a" ∈ (graphOf lateModel).1.sourcesOf "c" := by
    refine hiff.mpr ⟨by decide, "t", by decide, by decide, ?_, ?_, ?_⟩
    · exact ⟨_, .tail _ (.tail _ (.head _)), rfl, by decide⟩
    · exact ⟨_, .tail _ (.head _), rfl, by decide⟩
    · rintro d ⟨o, ho, rfl, ht⟩
      exact hlast o ho ht
  exact ⟨plain_lateModel, hedge, hboth.mpr hedge⟩

def tappedModel : Model where
  operations := [{ name := "a", type := "Relu", inputs := ["x"], outputs := ["t"] },
    { name := "b", type := "Relu", inputs := ["t"], outputs := ["y"] }]
  inputs := ["x"]
  outputs := ["t", "y"]

theorem reader_left_out :
    (lateModel.Plain ∧ Writes lateModel.operations "a" "t" ∧ Reads lateModel.operations "b" "t" ∧
      "a" ∉ (graphOf lateModel).1.sourcesOf "b") ∧
    (tappedModel.Plain ∧ Writes tappedModel.operations "a" "t" ∧ Reads tappedModel.operations "b" "t" ∧
      "a" ∉ (graphOf tappedModel).1.sourcesOf "b") := by
  refine ⟨⟨plain_lateModel, ?_, ?_, by decide⟩, ⟨?_, ?_, ?_⟩, ?_, ?_, by decide⟩
  · exact ⟨_, .tail _ (.tail _ (.head _)), rfl, by decide⟩
  · exact ⟨_, .head _, rfl, by decide⟩
  · decide
  · decide
  · decide
  · exact ⟨_, .head _, rfl, by decide⟩
  · exact ⟨_, .tail _ (.head _), rfl, by decide⟩

end NetBridge.Source.Onnx
