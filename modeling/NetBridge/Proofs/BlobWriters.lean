import NetBridge.Prototxt.Build
import NetBridge.Proofs.BuilderSteps
import NetBridge.Proofs.NetOrder

/-!
# The writers of blobs

A blob comes from the nearest layer before that writes it, or from an input of the net (`origin`). The table of writers
that connects the nodes finds the origin of every blob of an orderly description (`build_traces_blobs`).
-/

namespace NetBridge.Prototxt

open List LayerSpec Net

def LayerSpec.isTested (l : LayerSpec) : Bool := (isKept "test" l).toOption == some true

def LayerSpec.isDropped (l : LayerSpec) : Bool :=
  !l.isTested && l.type.kind?.toOption == some (some "Dropout")

inductive Origin where
  | input (name : String)
  | output (l : LayerSpec) (place : Int)

/-- The origin of a blob behind some layers, the last of them first. A dropout that is left out hands on the blob it
reads. -/
def origin (inputs : List String) : List LayerSpec → String → Option Origin
  | [], b => if b ∈ inputs then some (.input b) else none
  | l :: before, b =>
    if b ∈ l.tops then
      if l.isTested then some (.output l (l.tops.idxOf b))
      else if l.isDropped then l.bottoms.head?.bind (origin inputs before)
      else origin inputs before b
    else origin inputs before b

/-- The layers that count read only the blobs that are there, and what they write is there for the next ones. -/
def supplied : List String → List LayerSpec → Bool
  | _, [] => true
  | blobs, l :: rest =>
    if l.isTested || l.isDropped then l.bottoms.all (· ∈ blobs) && supplied (blobs ++ l.tops) rest
    else supplied blobs rest

def DropsInPlace (ls : List LayerSpec) : Prop :=
  ∀ l ∈ ls, l.isDropped = true → ∀ t ∈ l.tops, l.bottoms.head? = some t

def NamesFirst (ls : List LayerSpec) : Prop :=
  ls.Pairwise fun w l => w.isTested = true → l.isTested = true → l.name ∈ l.tops → l.name ∉ w.tops

/-! ## Origins by the layers that are kept -/

def recordedWriter (done : List LayerSpec) (b : String) : Option LayerSpec :=
  done.reverse.find? fun w => b ∈ w.tops ∧ w.name ≠ b

def namedWriter (done : List LayerSpec) (b : String) : Option LayerSpec :=
  done.find? fun w => w.name = b ∧ b ∈ w.tops

def traced (inputs : List String) (done : List LayerSpec) (b : String) : Option Origin :=
  (((recordedWriter done b).or (namedWriter done b)).map fun w => .output w (w.tops.idxOf b)).or
    (if b ∈ inputs then some (.input b) else none)

theorem recordedWriter_concat (done : List LayerSpec) (l : LayerSpec) (b : String) :
    recordedWriter (done ++ [l]) b = if b ∈ l.tops ∧ l.name ≠ b then some l else recordedWriter done b := by
  by_cases h : b ∈ l.tops ∧ l.name ≠ b <;> simp [h, recordedWriter]

theorem namedWriter_concat (done : List LayerSpec) (l : LayerSpec) (b : String) :
    namedWriter (done ++ [l]) b = (namedWriter done b).or (if l.name = b ∧ b ∈ l.tops then some l else none) := by
  by_cases h : l.name = b ∧ b ∈ l.tops <;> simp [namedWriter]

variable {l w : LayerSpec} {after before done ls : List LayerSpec} {b : String}

theorem recordedWriter_spec (h : recordedWriter done b = some w) : w ∈ done ∧ b ∈ w.tops := by
  have hmem := mem_of_find?_eq_some h
  have hp := find?_some h
  simp only [decide_eq_true_eq] at hp
  exact ⟨mem_reverse.mp hmem, hp.1⟩

theorem namedWriter_spec (h : namedWriter done b = some w) : w ∈ done ∧ w.name = b ∧ b ∈ w.tops := by
  have hp := find?_some h
  simp only [decide_eq_true_eq] at hp
  exact ⟨mem_of_find?_eq_some h, hp⟩

theorem no_writer (h : ∀ w ∈ done, b ∉ w.tops) : recordedWriter done b = none ∧ namedWriter done b = none := by
  constructor
  · cases hw : recordedWriter done b with
    | none => rfl
    | some w => exact absurd (recordedWriter_spec hw).2 (h w (recordedWriter_spec hw).1)
  · cases hw : namedWriter done b with
    | none => rfl
    | some w => exact absurd (namedWriter_spec hw).2.2 (h w (namedWriter_spec hw).1)

theorem traced_concat (inputs : List String) (b : String) (hfirst : l.name ∈ l.tops → ∀ w ∈ done, l.name ∉ w.tops) :
    traced inputs (done ++ [l]) b = if b ∈ l.tops then some (.output l (l.tops.idxOf b)) else traced inputs done b := by
  rw [traced, recordedWriter_concat, namedWriter_concat]
  by_cases hb : b ∈ l.tops
  · by_cases hname : l.name = b
    · subst hname
      obtain ⟨hrecorded, hnamed⟩ := no_writer (hfirst hb)
      simp [hb, hrecorded, hnamed]
    · simp [hb, hname]
  · simp [hb, traced]

theorem origin_eq_traced (inputs : List String) (hdrops : DropsInPlace before)
    (hfirst : NamesFirst before) (b : String) :
    origin inputs before.reverse b = traced inputs (before.filter (·.isTested)) b := by
  induction before using reverseRecOn generalizing b with
  | nil => rfl
  | append_singleton before l ih =>
    have hdrops' : DropsInPlace before := fun w hw => hdrops w (mem_append_left _ hw)
    obtain ⟨hfirst', -, hlast⟩ := pairwise_append.mp hfirst
    have ih := ih hdrops' hfirst'
    rw [reverse_append, reverse_singleton, singleton_append, origin, filter_append]
    by_cases ht : l.isTested = true
    · have hown : l.name ∈ l.tops → ∀ w ∈ before.filter (·.isTested), l.name ∉ w.tops := by
        intro htop w hw
        obtain ⟨hw, hwt⟩ := mem_filter.mp hw
        exact hlast w hw l (mem_singleton_self l) hwt ht htop
      rw [filter_singleton, ht, cond_true, traced_concat inputs b hown, ih b]
      simp
    · rw [filter_singleton, Bool.eq_false_iff.mpr ht, cond_false, append_nil, ← ih b]
      -- a dropout in place hands on the blob that is asked for
      by_cases hd : l.isDropped = true
      · by_cases hb : b ∈ l.tops
        · have hhead := hdrops l (by simp) hd b hb
          simp [hb, hhead]
        · simp [hb]
      · simp [hd]

theorem origin_isSome_of_supplied {inputs : List String} (hdrops : DropsInPlace ls)
    (hsupplied : supplied inputs ls = true)
    (hsplit : ls = before ++ l :: after) (ht : l.isTested = true) (hb : b ∈ l.bottoms) :
    (origin inputs before.reverse b).isSome = true := by
  suffices hsuf : ∀ before done blobs, DropsInPlace (before ++ l :: after) →
      (∀ x ∈ blobs, (origin inputs done x).isSome = true) → supplied blobs (before ++ l :: after) = true →
      (origin inputs (before.reverse ++ done) b).isSome = true by
    subst hsplit
    simpa using hsuf before [] inputs hdrops (fun x hx => by simp [origin, hx]) hsupplied
  intro before
  induction before with
  | nil =>
    intro done blobs _ hblobs hs
    simp only [nil_append, supplied, ht, Bool.true_or, ite_true, Bool.and_eq_true, all_eq_true,
      decide_eq_true_eq] at hs
    exact hblobs b (hs.1 b hb)
  | cons w before ih =>
    intro done blobs hd hblobs hs
    have hd' : DropsInPlace (before ++ l :: after) := fun v hv => hd v (.tail _ hv)
    rw [reverse_cons, append_assoc]
    rw [cons_append, supplied] at hs
    by_cases hused : (w.isTested || w.isDropped) = true
    · rw [if_pos hused, Bool.and_eq_true, all_eq_true] at hs
      refine ih (w :: done) (blobs ++ w.tops) hd' (fun x hx => ?_) hs.2
      rw [origin]
      by_cases hx' : x ∈ w.tops
      · by_cases hwt : w.isTested = true
        · simp [hx', hwt]
        · have hwd : w.isDropped = true := by simpa [hwt] using hused
          have hhead := hd w (.head _) hwd x hx'
          have hread := hs.1 x (mem_of_head? hhead)
          simpa [hwt, hhead] using hblobs x (by simpa using hread)
      · have hthere : x ∈ blobs := by simpa [hx'] using hx
        simpa [hx'] using hblobs x hthere
    · rw [if_neg hused] at hs
      have hunused : w.isTested = false ∧ w.isDropped = false := by simpa using hused
      refine ih (w :: done) blobs hd' (fun x hx => ?_) hs
      simpa [origin, hunused] using hblobs x hx

/-! ## The nodes before they are connected -/

theorem isTested_of_isKept {b : Bool} (h : isKept "test" l = .ok b) : l.isTested = b := by
  rw [isTested, h]
  cases b <;> rfl

theorem keptLayers_eq {taken : List String} (hphases : ∀ l ∈ ls, ∃ b, isKept "test" l = .ok b)
    (hnames : (taken ++ ls.map (·.name)).Nodup) : keptLayers "test" taken ls = .ok (ls.filter (·.isTested)) := by
  induction ls generalizing taken with
  | nil => rfl
  | cons l ls ih =>
    obtain ⟨b, hb⟩ := hphases l (.head _)
    have hphases' : ∀ w ∈ ls, ∃ b, isKept "test" w = .ok b := fun w hw => hphases w (.tail _ hw)
    have hnew : l.name ∉ taken := by
      intro h
      exact (nodup_append.mp hnames).2.2 _ h l.name (by simp) rfl
    rw [keptLayers, hb, filter_cons, isTested_of_isKept hb]
    cases b with
    | true =>
      have hfresh : freshName taken l.name = l.name := by rw [freshName, if_neg (by simpa using hnew)]
      have hrest : keptLayers "test" (taken ++ [l.name]) ls = .ok (ls.filter (·.isTested)) :=
        ih hphases' (by simpa using hnames)
      simp [hfresh, hnew, hrest, bind, Except.bind, pure, Except.pure]
    | false =>
      have hsub : (taken ++ ls.map (·.name)).Nodup :=
        hnames.sublist (.append_left (sublist_cons_self ..) _)
      simpa [bind, Except.bind] using ih hphases' hsub

def LayerSpec.node (l : LayerSpec) : Node :=
  { name := l.name, kind := l.type.kind?.toOption.join, spec := some l,
    outputs := Text.replaceChar '/' '_' l.name :: l.tops.drop 1 }

theorem layerNode_eq {k : Option String} (h : l.type.kind? = .ok k) : layerNode l = .ok l.node := by
  rw [layerNode, LayerSpec.node, h]
  rfl

def startNet (n : NetSpec) (ls : List LayerSpec) : Net := Net.ofNodes n.name (inputNodes n ++ ls.map LayerSpec.node)

variable {i j k p : Nat} {g h : Net} {x : String} {α β : Type}

section
variable {n : NetSpec}

theorem length_inputNodes : (inputNodes n).length = n.inputs.length := by simp [inputNodes]

theorem size_startNet : (startNet n ls).pool.size = n.inputs.length + ls.length := by
  simp [startNet, ofNodes, length_inputNodes]

theorem members_startNet : (startNet n ls).members = range (n.inputs.length + ls.length) := by
  simp [startNet, ofNodes, length_inputNodes]

theorem node_startNet {x : Node} (h : (inputNodes n ++ ls.map LayerSpec.node)[k]? = some x) :
    (startNet n ls).node k = x := by
  simp [startNet, Net.ofNodes, Net.node, h]

theorem node_startNet_layer (h : ls[j]? = some w) : (startNet n ls).node (n.inputs.length + j) = w.node := by
  apply node_startNet
  rw [List.getElem?_append_right (by rw [length_inputNodes]; omega), length_inputNodes]
  simp [h]

theorem node_startNet_input (ls : List LayerSpec) (h : k < n.inputs.length) :
    ∃ x ∈ inputNodes n, (startNet n ls).node k = x := by
  have hk : k < (inputNodes n).length := by rwa [length_inputNodes]
  refine ⟨(inputNodes n)[k], getElem_mem hk, node_startNet ?_⟩
  rw [getElem?_append_left hk, getElem?_eq_getElem hk]

theorem nodes_startNet : (startNet n ls).nodes = inputNodes n ++ ls.map LayerSpec.node := by
  rw [nodes, members_startNet]
  apply ext_getElem
  · simp [length_inputNodes]
  · intro k hk hk'
    rw [getElem_map, getElem_range, node_startNet (getElem?_eq_getElem hk')]

theorem names_startNet : (startNet n ls).nodes.map (·.name) = n.inputs ++ ls.map (·.name) := by
  rw [nodes_startNet, List.map_append, inputNodes, List.map_map, List.map_map]
  congr 1
  exact List.map_id' _

theorem parents_startNet (k : Nat) : ((startNet n ls).node k).parents = [] := by
  cases h : (inputNodes n ++ ls.map LayerSpec.node)[k]? with
  | none =>
    simp only [startNet, Net.ofNodes, Net.node, Array.getD_eq_getD_getElem?, List.getElem?_toArray, h]
    rfl
  | some x =>
    rw [node_startNet h]
    rcases List.mem_append.mp (List.mem_of_getElem? h) with hx | hx
    · obtain ⟨y, -, rfl⟩ := List.mem_map.mp hx
      rfl
    · obtain ⟨y, -, rfl⟩ := List.mem_map.mp hx
      rfl

theorem find_startNet (h : (startNet n ls).byName.find? x = some p) :
    p < n.inputs.length + ls.length ∧ ((startNet n ls).node p).name = x := by
  rw [startNet, ofNodes, Table.find?_ofList] at h
  obtain ⟨⟨nd, q⟩, hmem, heq⟩ := mem_map.mp (mem_reverse.mp (Table.mem_of_findIn h))
  obtain ⟨rfl, rfl⟩ := Prod.mk.inj heq
  have hget := mem_zipIdx_iff_getElem?.mp hmem
  obtain ⟨hlt, -⟩ := List.getElem?_eq_some_iff.mp hget
  refine ⟨by simpa [length_inputNodes] using hlt, ?_⟩
  rw [node_startNet hget]

theorem exists_find_startNet (h : x ∈ n.inputs ∨ x ∈ ls.map (·.name)) :
    ∃ p, (startNet n ls).byName.find? x = some p := by
  rw [← Table.mem_keys_iff, startNet, ofNodes, Table.mem_keys_ofList]
  have hnames : ((inputNodes n ++ ls.map LayerSpec.node).zipIdx.map fun e => (e.1.name, e.2)).map (·.1) =
      n.inputs ++ ls.map (·.name) := by
    rw [map_map]
    change (inputNodes n ++ ls.map LayerSpec.node).zipIdx.map ((·.name) ∘ Prod.fst) = _
    rw [← map_map, zipIdx_map_fst, ← nodes_startNet, names_startNet]
  rw [hnames]
  exact mem_append.mpr h

variable (hnames : (ls.map (·.name)).Nodup) (hapart : ∀ l ∈ ls, l.name ∉ n.inputs)

theorem name_startNet_input (ls : List LayerSpec) (hp : p < n.inputs.length) :
    ((startNet n ls).node p).name ∈ n.inputs ∧ ((startNet n ls).node p).spec = none := by
  obtain ⟨x, hx, he⟩ := node_startNet_input ls hp
  obtain ⟨y, hy, rfl⟩ := mem_map.mp hx
  rw [he]
  exact ⟨hy, rfl⟩

include hnames hapart in
theorem find_startNet_layer (h : ls[j]? = some w) :
    (startNet n ls).byName.find? w.name = some (n.inputs.length + j) := by
  have hw : w ∈ ls := List.mem_of_getElem? h
  obtain ⟨p, hp⟩ := exists_find_startNet (n := n) (.inr (List.mem_map_of_mem hw))
  obtain ⟨hlt, hname⟩ := find_startNet hp
  rcases Nat.lt_or_ge p n.inputs.length with hin | hout
  · exact absurd (hname ▸ (name_startNet_input ls hin).1) (hapart w hw)
  · obtain ⟨q, rfl⟩ := Nat.exists_eq_add_of_le hout
    have hq : q < ls.length := by omega
    rw [node_startNet_layer (List.getElem?_eq_getElem hq)] at hname
    have hj : j < ls.length := (List.getElem?_eq_some_iff.mp h).1
    have hsame : (ls.map (·.name))[q]? = (ls.map (·.name))[j]? := by
      simp only [List.getElem?_map, List.getElem?_eq_getElem hq, h, Option.map_some]
      exact congrArg some hname
    rw [hp, (List.getElem?_inj (by simpa using hq) hnames).mp hsame]

include hapart in
theorem find_startNet_input (hb : b ∈ n.inputs) :
    ∃ p < n.inputs.length, (startNet n ls).byName.find? b = some p ∧ ((startNet n ls).node p).name = b := by
  obtain ⟨p, hp⟩ : ∃ p, (startNet n ls).byName.find? b = some p := exists_find_startNet (.inl hb)
  obtain ⟨hlt, hname⟩ := find_startNet hp
  rcases Nat.lt_or_ge p n.inputs.length with hin | hout
  · exact ⟨p, hin, hp, hname⟩
  · obtain ⟨q, rfl⟩ := Nat.exists_eq_add_of_le hout
    have hq : q < ls.length := by omega
    rw [node_startNet_layer (List.getElem?_eq_getElem hq)] at hname
    have hlayer : ls[q].name = b := hname
    exact absurd (hlayer ▸ hb) (hapart _ (List.getElem_mem hq))

end

/-! ## Connecting the nodes -/

/-- The second net differs from the first in the links of its nodes only. -/
structure Net.Relinked (g h : Net) : Prop where
  members : h.members = g.members
  size : h.pool.size = g.pool.size
  byName : h.byName = g.byName
  nodes : ∀ k, h.node k = { g.node k with parents := (h.node k).parents, children := (h.node k).children }

theorem Net.Relinked.spec (hr : g.Relinked h) (k : Nat) : (h.node k).spec = (g.node k).spec := by
  rw [hr.nodes]

theorem Net.Relinked.connect (hr : g.Relinked h) (c p : Nat) (o : Int) : g.Relinked (h.connect c p o) := by
  refine ⟨members_connect.trans hr.members, size_connect.trans hr.size, ?_, fun k => ?_⟩
  · rw [← hr.byName]
    unfold Net.connect
    dsimp only
    split <;> rfl
  · have hupdate : ∀ k, (h.update c fun n => { n with parents := n.parents ++ [(p, o)] }).node k =
        { g.node k with
          parents := ((h.update c fun n => { n with parents := n.parents ++ [(p, o)] }).node k).parents
          children := (h.node k).children } := by
      intro k
      rw [node_update]
      split
      · rw [hr.nodes k]
      · exact hr.nodes k
    rw [Net.connect]
    split
    · rw [hupdate k]
    · rw [node_update]
      split
      · rw [hupdate k]
      · rw [hupdate k]

def Net.originOf (g : Net) (e : Nat × Int) : Origin :=
  match (g.node e.1).spec with
  | none => .input (g.node e.1).name
  | some w => .output w e.2

theorem Net.originOf_congr {e : Nat × Int} (hspec : (h.node e.1).spec = (g.node e.1).spec)
    (hname : (h.node e.1).name = (g.node e.1).name) : h.originOf e = g.originOf e := by
  rw [originOf, originOf, hspec, hname]

variable {f : β → Nat → β} {ts : List α}

theorem foldl_zipIdx_of_not_mem [DecidableEq α] {b : α} (h : b ∉ ts)
    (k : Nat) (g : β) : (ts.zipIdx k).foldl (fun g e => if e.1 = b then f g e.2 else g) g = g := by
  induction ts generalizing k with
  | nil => rfl
  | cons t ts ih =>
    rw [zipIdx_cons, foldl_cons, if_neg fun e : t = b => h (e ▸ .head _)]
    exact ih (fun hb => h (.tail _ hb)) (k + 1)

theorem foldl_zipIdx_once [DecidableEq α] {b : α} (hts : ts.Nodup) (hb : b ∈ ts) (k : Nat) (g : β) :
    (ts.zipIdx k).foldl (fun g e => if e.1 = b then f g e.2 else g) g = f g (k + ts.idxOf b) := by
  induction ts generalizing k with
  | nil => cases hb
  | cons t ts ih =>
    obtain ⟨hnot, hts⟩ := nodup_cons.mp hts
    rw [zipIdx_cons, foldl_cons]
    by_cases he : t = b
    · subst he
      rw [if_pos rfl, foldl_zipIdx_of_not_mem hnot, idxOf_cons_self, Nat.add_zero]
    · have hmem : b ∈ ts := by simpa [Ne.symm he] using hb
      rw [if_neg he, ih hts hmem, idxOf_cons_ne _ he]
      congr 1
      omega

def writerOf (written : Table Nat) (g : Net) (i : Nat) (b : String) : Except Fault Nat :=
  match written.find? b with
  | some p => if p = i then g.find b else pure p
  | none => g.find b

def linkWriter (g : Net) (i : Nat) (b : String) (p : Nat) : Except Fault Net :=
  match (g.node p).spec with
  | none => pure (g.connect i p 0)
  | some w => pure (w.tops.zipIdx.foldl (fun g e => if e.1 = b then g.connect i p e.2 else g) g)

section
variable {written : Table Nat}

theorem readBlob_eq_bind (hown : b ≠ l.name) :
    readBlob written g l i b = writerOf written g i b >>= linkWriter g i b := by
  have hrequire : require (decide (b ≠ l.name)) = .ok () := by simp [require, hown]
  unfold readBlob writerOf
  rw [hrequire]
  cases written.find? b with
  | none => rfl
  | some p =>
    by_cases hp : p = i
    · simp only [if_pos hp]
      rfl
    · simp only [if_neg hp]
      rfl

theorem readBlob_layer (hown : b ≠ l.name) (hp : writerOf written g i b = .ok p)
    (hspec : (g.node p).spec = some w) (honce : w.tops.Nodup) (hb : b ∈ w.tops) :
    readBlob written g l i b = .ok (g.connect i p (w.tops.idxOf b)) := by
  have hfold := foldl_zipIdx_once (f := fun (g : Net) k => g.connect i p (k : Int)) honce hb 0 g
  rw [Nat.zero_add] at hfold
  rw [readBlob_eq_bind hown, except_bind_eq_ok]
  refine ⟨p, hp, ?_⟩
  simp only [linkWriter, hspec]
  exact congrArg Except.ok hfold

theorem readBlob_input (hown : b ≠ l.name) (hp : writerOf written g i b = .ok p) (hspec : (g.node p).spec = none) :
    readBlob written g l i b = .ok (g.connect i p 0) := by
  rw [readBlob_eq_bind hown, except_bind_eq_ok]
  refine ⟨p, hp, ?_⟩
  simp only [linkWriter, hspec]
  rfl

end

section
variable {n : NetSpec} {rest : List LayerSpec} {written : Table Nat}

/-- The table has the last writer of every blob, layers that write a blob of their own name apart. -/
def Records (n : NetSpec) (ls : List LayerSpec) (written : Table Nat) (done : List LayerSpec) : Prop :=
  ∀ b, written.find? b = (recordedWriter done b).bind fun w => (startNet n ls).byName.find? w.name

theorem findIn_map_const (b : String) (ts : List String) (v : β) :
    Table.findIn b (ts.map fun t => (t, v)) = if b ∈ ts then some v else none := by
  induction ts with
  | nil => rfl
  | cons t ts ih =>
    rw [map_cons, Table.findIn, ih]
    by_cases h : t = b
    · simp [h]
    · simp [h, Ne.symm h]

theorem Records.insertAll (h : Records n ls written done) (hi : (startNet n ls).byName.find? l.name = some i) :
    Records n ls (written.insertAll ((l.tops.filter (· ≠ l.name)).map fun t => (t, i))) (done ++ [l]) := by
  intro b
  rw [Table.find?_insertAll, ← map_reverse, findIn_map_const, recordedWriter_concat, h b]
  by_cases hb : b ∈ l.tops ∧ l.name ≠ b
  · simp [hb.1, Ne.symm hb.2, hb.2, hi]
  · have hno : b ∉ (l.tops.filter (· ≠ l.name)).reverse := by
      intro hmem
      obtain ⟨hmem, hne⟩ := mem_filter.mp (mem_reverse.mp hmem)
      exact hb ⟨hmem, fun e => (by simpa using hne : b ≠ l.name) e.symm⟩
    rw [if_neg hno, if_neg hb, Option.none_or]

variable (hls : ls = done ++ l :: rest) (hnames : (ls.map (·.name)).Nodup) (hapart : ∀ l ∈ ls, l.name ∉ n.inputs)
  (honce : ∀ l ∈ ls, l.tops.Nodup) {c : Nat} (hc : c = n.inputs.length + done.length)

include hls hnames hapart honce hc in
theorem readBlob_eq (hg : (startNet n ls).Relinked g) (hw : Records n ls written done)
    (hown : b ≠ l.name) {o : Origin} (ho : traced n.inputs done b = some o) :
    ∃ p k, readBlob written g l c b = .ok (g.connect c p k) ∧
      p < c ∧ (startNet n ls).originOf (p, k) = o := by
  -- whichever way a writer is found, it stands among the layers done
  have hwriter : ∀ w ∈ done, ∃ j < done.length,
      (startNet n ls).byName.find? w.name = some (n.inputs.length + j) ∧
        ((startNet n ls).node (n.inputs.length + j)).spec = some w ∧ w.tops.Nodup := by
    intro w hmem
    obtain ⟨j, hj, hget⟩ := List.mem_iff_getElem.mp hmem
    have hat : ls[j]? = some w := by
      rw [hls, List.getElem?_append_left hj, List.getElem?_eq_getElem hj, hget]
    refine ⟨j, hj, find_startNet_layer hnames hapart hat, ?_, honce w (List.mem_of_getElem? hat)⟩
    rw [node_startNet_layer hat]
    rfl
  rw [traced] at ho
  cases hrec : recordedWriter done b with
  | some w =>
    obtain ⟨hmem, hb⟩ := recordedWriter_spec hrec
    obtain ⟨j, hj, hfind, hspec, htops⟩ := hwriter w hmem
    have hne : n.inputs.length + j ≠ c := by omega
    have hp : writerOf written g c b = .ok (n.inputs.length + j) := by
      simp only [writerOf, hw b, hrec, Option.bind_some, hfind, if_neg hne]
      rfl
    refine ⟨_, _, readBlob_layer hown hp (by rw [hg.spec, hspec]) htops hb, by omega, ?_⟩
    simpa [Net.originOf, hspec, hrec] using ho
  | none =>
    have hbyName : writerOf written g c b = g.find b := by
      simp only [writerOf, hw b, hrec, Option.bind_none]
    cases hname : namedWriter done b with
    | some w =>
      obtain ⟨hmem, rfl, hb⟩ := namedWriter_spec hname
      obtain ⟨j, hj, hfind, hspec, htops⟩ := hwriter w hmem
      have hp := hbyName.trans (show g.find w.name = .ok (n.inputs.length + j) by
        simp only [Net.find, Table.get, hg.byName, hfind])
      refine ⟨_, _, readBlob_layer hown hp (by rw [hg.spec, hspec]) htops hb, by omega, ?_⟩
      simpa [Net.originOf, hspec, hrec, hname] using ho
    | none =>
      have hin : b ∈ n.inputs ∧ Origin.input b = o := by
        by_cases hin : b ∈ n.inputs
        · simpa [hrec, hname, hin] using ho
        · simp [hrec, hname, hin] at ho
      obtain ⟨p, hp, hfind, hpname⟩ := find_startNet_input hapart hin.1
      have hspec := (name_startNet_input ls hp).2
      have hpfind := hbyName.trans (show g.find b = .ok p by simp only [Net.find, Table.get, hg.byName, hfind])
      refine ⟨p, 0, readBlob_input hown hpfind (by rw [hg.spec, hspec]), by omega, ?_⟩
      simpa [Net.originOf, hspec, hpname] using hin.2

include hls hnames hapart honce hc in
theorem readBlobs_eq (hw : Records n ls written done) {bs : List String} (hown : l.name ∉ bs)
    (hall : ∀ b ∈ bs, (traced n.inputs done b).isSome = true) (hg : (startNet n ls).Relinked g) :
    ∃ g' es, bs.foldlM (fun g b => readBlob written g l c b) g = .ok g' ∧
      (startNet n ls).Relinked g' ∧
      (g'.node c).parents = (g.node c).parents ++ es ∧
      (∀ k, k ≠ c → (g'.node k).parents = (g.node k).parents) ∧
      (es.map fun e => some ((startNet n ls).originOf e)) = bs.map (traced n.inputs done) ∧
      ∀ e ∈ es, e.1 < c := by
  induction bs generalizing g with
  | nil => exact ⟨g, [], rfl, hg, by simp, fun _ _ => rfl, rfl, nofun⟩
  | cons b bs ih =>
    obtain ⟨o, ho⟩ := Option.isSome_iff_exists.mp (hall b (.head _))
    have hb : b ≠ l.name := fun e => hown (e ▸ .head _)
    obtain ⟨p, k, hread, hp, horigin⟩ := readBlob_eq hls hnames hapart honce hc hg hw hb ho
    obtain ⟨g', es, hrest, hg', hparents, hothers, horigins, hbefore⟩ := ih
      (fun h => hown (.tail _ h)) (fun x hx => hall x (.tail _ hx))
      (hg.connect c p k)
    have hlength : done.length < ls.length := by rw [hls]; simp
    have hsize : g.pool.size = n.inputs.length + ls.length := hg.size.trans size_startNet
    have hlinks := fun v => (node_connect (g := g) (c := c) (p := p) (o := k)
      (by omega) (by omega) v).1
    refine ⟨g', (p, k) :: es, ?_, hg', ?_, fun v hv => ?_, ?_, ?_⟩
    · rw [List.foldlM_cons, hread]
      exact hrest
    · rw [hparents, hlinks, if_pos rfl, List.append_assoc, List.singleton_append]
    · rw [hothers v hv, hlinks, if_neg hv]
    · rw [List.map_cons, List.map_cons, horigins, horigin, ho]
    · intro e he
      rcases List.mem_cons.mp he with rfl | he
      · exact hp
      · exact hbefore e he

end

def ReadsOrigins (n : NetSpec) (ls : List LayerSpec) (g : Net) (pre : List LayerSpec) (l : LayerSpec) : Prop :=
  ((g.node (n.inputs.length + pre.length)).parents.map fun e => some ((startNet n ls).originOf e)) =
      l.bottoms.map (traced n.inputs pre) ∧
    ∀ e ∈ (g.node (n.inputs.length + pre.length)).parents, e.1 < n.inputs.length + pre.length

structure Traceable (n : NetSpec) (ls : List LayerSpec) : Prop where
  names : (ls.map (·.name)).Nodup
  apart : ∀ l ∈ ls, l.name ∉ n.inputs
  once : ∀ l ∈ ls, l.tops.Nodup
  own : ∀ l ∈ ls, l.name ∉ l.bottoms
  found : ∀ pre l post, ls = pre ++ l :: post → ∀ b ∈ l.bottoms, (traced n.inputs pre b).isSome = true

theorem wire_eq {n : NetSpec} (ht : Traceable n ls) (rest : List LayerSpec) :
    ∀ done written g, ls = done ++ rest → (startNet n ls).Relinked g → Records n ls written done →
      (∀ k, n.inputs.length + done.length ≤ k → (g.node k).parents = []) →
      ∃ g', wire written g rest = .ok g' ∧ (startNet n ls).Relinked g' ∧
        (∀ k, k < n.inputs.length + done.length → (g'.node k).parents = (g.node k).parents) ∧
        ∀ pre l post, ls = pre ++ l :: post → done.length ≤ pre.length → ReadsOrigins n ls g' pre l := by
  induction rest with
  | nil =>
    intro done written g hls hg _ _
    refine ⟨g, rfl, hg, fun _ _ => rfl, fun pre l post hsplit hle => ?_⟩
    have hlength := congrArg length (hls.symm.trans hsplit)
    simp only [append_nil, length_append, length_cons] at hlength
    omega
  | cons l rest ih =>
    intro done written g hls hg hw hempty
    have hl : l ∈ ls := by rw [hls]; simp
    have hat : ls[done.length]? = some l := by rw [hls]; simp
    have hfind := find_startNet_layer ht.names ht.apart hat
    obtain ⟨g₁, es, hread, hg₁, hparents, hothers, horigins, hbefore⟩ :=
      readBlobs_eq hls ht.names ht.apart ht.once rfl hw (ht.own l hl) (ht.found done l rest hls) hg
    rw [hempty _ (Nat.le_refl _)] at hparents
    obtain ⟨g₂, hwire, hg₂, hkept, hreads⟩ := ih (done ++ [l]) _ g₁ (by rw [hls]; simp) hg₁ (hw.insertAll hfind) (by
      intro k hk
      rw [length_append, length_singleton] at hk
      rw [hothers k (by omega)]
      exact hempty k (by omega))
    rw [length_append, length_singleton] at hkept hreads
    have hfound : g.find l.name = .ok (n.inputs.length + done.length) := by
      simp only [find, Table.get, hg.byName, hfind]
    refine ⟨g₂, ?_, hg₂, fun k hk => ?_, fun pre w post hsplit hle => ?_⟩
    · exact (ok_bind hfound).trans ((ok_bind hread).trans hwire)
    · rw [hkept k (by omega), hothers k (by omega)]
    · rcases Nat.eq_or_lt_of_le hle with heq | hlt
      · -- the layer that has just been connected
        obtain ⟨rfl, htail⟩ := append_inj (hls.symm.trans hsplit) heq
        obtain ⟨rfl, -⟩ := cons.inj htail
        have hnow : (g₂.node (n.inputs.length + done.length)).parents = es := (hkept _ (by omega)).trans hparents
        exact ⟨by rw [hnow]; exact horigins, by rw [hnow]; exact hbefore⟩
      · exact hreads pre w post hsplit hlt

/-! ## Orderly descriptions -/

def LayerSpec.Sizable (l : LayerSpec) : Prop :=
  ∀ (g : Net) (i : Nat), (g.node i).spec = some l → l.type.kind? = .ok (g.node i).kind → (g.node i).sizes = none →
    (g.node i).parents.length = l.bottoms.length → (∀ p ∈ g.sources i, g.Sized p) →
    ∃ dims, outputSizes g i = .ok (some dims) ∧ dims.length = 4

def NetSpec.feedDims (n : NetSpec) : List Int := if n.inputDims.isEmpty then n.inputSizes.headD [] else n.inputDims

structure NetSpec.Orderly (n : NetSpec) : Prop where
  -- the layers have different names, read what is there, and have sizes
  names : (n.allLayers.map (·.name)).Nodup
  own : ∀ l ∈ n.allLayers, l.isTested = true → l.name ∉ l.bottoms
  supplied : supplied n.inputs n.allLayers = true
  kinds : ∀ l ∈ n.allLayers, l.isTested = true → ∃ k, l.type.kind? = .ok (some k)
  sized : ∀ l ∈ n.allLayers, l.isTested = true → l.Sizable
  feeds : n.inputs ≠ [] → n.feedDims.length = 4
  -- nothing misleads the search for the writer of a blob
  phases : ∀ l ∈ n.allLayers, ∃ b, isKept "test" l = .ok b
  once : ∀ l ∈ n.allLayers, l.isTested = true → l.tops.Nodup
  apart : ∀ l ∈ n.allLayers, l.isTested = true → l.name ∉ n.inputs
  drops : DropsInPlace n.allLayers
  first : NamesFirst n.allLayers

section
variable {n : NetSpec}

theorem exists_split_of_filter {ls pre post : List LayerSpec} (h : ls.filter (·.isTested) = pre ++ l :: post) :
    ∃ before after, ls = before ++ l :: after ∧ before.filter (·.isTested) = pre ∧ l.isTested = true := by
  obtain ⟨before, more, rfl, hpre, hmore⟩ := filter_eq_append_iff.mp h
  obtain ⟨skipped, after, rfl, hskipped, hl, -⟩ := filter_eq_cons_iff.mp hmore
  refine ⟨before ++ skipped, after, by simp, ?_, hl⟩
  rw [filter_append, hpre, filter_eq_nil_iff.mpr hskipped, append_nil]

theorem NetSpec.Orderly.origin_eq (h : n.Orderly) (hsplit : n.allLayers = before ++ l :: after) (b : String) :
    origin n.inputs before.reverse b = traced n.inputs (before.filter (·.isTested)) b := by
  refine origin_eq_traced n.inputs (fun w hw => h.drops w ?_) ?_ b
  · rw [hsplit]
    exact mem_append_left _ hw
  · have hfirst := h.first
    rw [hsplit] at hfirst
    exact (pairwise_append.mp hfirst).1

abbrev NetSpec.kept (n : NetSpec) : List LayerSpec := n.allLayers.filter (·.isTested)

theorem NetSpec.Orderly.traceable (h : n.Orderly) : Traceable n n.kept where
  names := h.names.sublist (filter_sublist.map _)
  apart l hl := h.apart l (mem_filter.mp hl).1 (mem_filter.mp hl).2
  once l hl := h.once l (mem_filter.mp hl).1 (mem_filter.mp hl).2
  own l hl := h.own l (mem_filter.mp hl).1 (mem_filter.mp hl).2
  found pre l post hsplit b hb := by
    obtain ⟨before, after, hall, rfl, ht⟩ := exists_split_of_filter hsplit
    rw [← h.origin_eq hall b]
    exact origin_isSome_of_supplied h.drops h.supplied hall ht hb

/-! ## Sizes of a connected net -/

theorem outputSizes_feed {s : Sizes} (hkind : (g.node i).kind = some "Data")
    (hsizes : (g.node i).sizes = some s) (hdims : s.dims.length = 4) : outputSizes g i = .ok (some s.dims) := by
  have hfeed : feedSizes (g.node i) = some s.dims := by
    have hne : s.dims.isEmpty = false := by
      cases hs : s.dims with
      | nil => rw [hs] at hdims; cases hdims
      | cons => rfl
    simp [feedSizes, hsizes, hne]
  refine except_bind_eq_ok.mpr ⟨"Data", by rw [hkind]; rfl, (ok_bind rfl).trans ?_⟩
  exact congrArg Except.ok hfeed

theorem sizable_of_reads (h : n.Orderly) (hg : (startNet n n.kept).Relinked g)
    (hreads : ∀ pre l post, n.kept = pre ++ l :: post →
      ReadsOrigins n n.kept g pre l) (hi : i ∈ g.members) : g.Sizable i := by
  intro g' hr hsame hsources
  rw [hg.members, members_startNet, mem_range] at hi
  rcases Nat.lt_or_ge i n.inputs.length with hin | hout
  · obtain ⟨x, hx, he⟩ := node_startNet_input n.kept hin
    obtain ⟨name, hname, rfl⟩ := mem_map.mp hx
    have hdims : n.feedDims.length = 4 := h.feeds (ne_nil_of_mem hname)
    have hkind : (g'.node i).kind = some "Data" := by rw [hr.nodes, hg.nodes, he]
    have hsizes : (g'.node i).sizes = some { dims := n.feedDims, named := false } := by
      rw [hsame, hg.nodes, he]
      rfl
    exact ⟨n.feedDims, outputSizes_feed hkind hsizes hdims, hdims⟩
  · obtain ⟨j, rfl⟩ := Nat.exists_eq_add_of_le hout
    have hj : j < n.kept.length := by omega
    obtain ⟨pre, l, post, hsplit, rfl⟩ : ∃ pre l post, n.kept = pre ++ l :: post ∧
        pre.length = j :=
      ⟨_, _, _, (take_append_drop j _).symm.trans (by rw [drop_eq_getElem_cons hj]),
        length_take_of_le (Nat.le_of_lt hj)⟩
    have hat : n.kept[pre.length]? = some l := by rw [hsplit]; simp
    obtain ⟨hl, ht⟩ := mem_filter.mp (mem_of_getElem? hat)
    obtain ⟨k, hk⟩ := h.kinds l hl ht
    have hnode := node_startNet_layer (n := n) hat
    refine h.sized l hl ht g' _ ?_ ?_ ?_ ?_ fun p hp => hsources p (hr.sources _ ▸ hp)
    · rw [hr.nodes, hg.nodes, hnode]
      rfl
    · rw [hr.nodes, hg.nodes, hnode, LayerSpec.node, hk]
      rfl
    · rw [hsame, hg.nodes, hnode]
      rfl
    · have hlength := congrArg length (hreads pre l post hsplit).1
      rw [hr.nodes]
      simpa using hlength

theorem sourcesFirst_of_reads (hg : (startNet n ls).Relinked g)
    (hinputs : ∀ k, k < n.inputs.length → (g.node k).parents = [])
    (hreads : ∀ pre l post, ls = pre ++ l :: post → ReadsOrigins n ls g pre l) : g.SourcesFirst := by
  intro pre i post hsplit p hp
  rw [hg.members, members_startNet] at hsplit
  have hpre : pre.length < n.inputs.length + ls.length := by
    have hlength := congrArg length hsplit
    simp only [length_range, length_append, length_cons] at hlength
    omega
  have hi : i = pre.length := by
    have hget := congrArg (·[pre.length]?) hsplit
    simpa [hpre, eq_comm] using hget
  have hbefore : pre = range pre.length := by
    have htake := congrArg (take pre.length) hsplit
    rw [take_left, take_range, Nat.min_eq_left (Nat.le_of_lt hpre)] at htake
    exact htake.symm
  obtain ⟨e, he, rfl⟩ := mem_sources.mp hp
  subst hi
  rw [hbefore, mem_range]
  rcases Nat.lt_or_ge pre.length n.inputs.length with hin | hout
  · rw [hinputs _ hin] at he
    cases he
  · obtain ⟨j, hj⟩ := Nat.exists_eq_add_of_le hout
    have hjlt : j < ls.length := by omega
    have hdone : (ls.take j).length = j := length_take_of_le (Nat.le_of_lt hjlt)
    have hlast := (hreads (ls.take j) ls[j] (ls.drop (j + 1)) (by simp)).2
    rw [hdone, ← hj] at hlast
    exact hlast e he

/-- What is built from an orderly description: its nodes, connected by way of a net without sizes. -/
theorem build_eq (h : n.Orderly) (shape : Option (List Value)) :
    ∃ g g', build n { inputShape := shape } = .ok g' ∧ (startNet n n.kept).Relinked g ∧
      g.Resized g' ∧ ∀ pre l post, n.kept = pre ++ l :: post →
        ReadsOrigins n n.kept g pre l := by
  have hkept : keptLayers "test" [] n.allLayers = .ok n.kept :=
    keptLayers_eq h.phases h.names
  have hnodes : n.kept.mapM layerNode =
      .ok (n.kept.map node) := by
    refine mapM_eq_map fun l hl => ?_
    obtain ⟨k, hk⟩ := h.kinds l (mem_filter.mp hl).1 (mem_filter.mp hl).2
    exact layerNode_eq hk
  obtain ⟨g, hwire, hg, hinputs, hreads⟩ := wire_eq h.traceable _ [] ∅ _ rfl ⟨rfl, rfl, rfl, fun _ => rfl⟩
    (fun b => by simp [recordedWriter]) fun k _ => parents_startNet k
  have hreads := fun pre l post hsplit => hreads pre l post hsplit (Nat.zero_le _)
  have hfirst : g.SourcesFirst :=
    sourcesFirst_of_reads hg (fun k hk => (hinputs k hk).trans (parents_startNet k)) hreads
  have hrange : g.members = range g.pool.size := by rw [hg.members, hg.size, members_startNet, size_startNet]
  obtain ⟨s, hsizes, hr⟩ := setAllSizes_succeeds [] (fun i hi => by simpa [hrange] using hi)
    (by rw [hrange]; exact nodup_range) hfirst fun i hi => sizable_of_reads h hg hreads hi
  refine ⟨g, s.net, ?_, hg, hr, hreads⟩
  refine (ok_bind rfl).trans ((ok_bind hkept).trans ((ok_bind hnodes).trans ((ok_bind hwire).trans ?_)))
  rw [hsizes]
  rfl

/-- **Writers of blobs.** An orderly description can be built for testing. The net has a node for every input and every
kept layer, in order, and each layer reads the origins of its blobs in the order in which it names them. -/
theorem build_traces_blobs (h : n.Orderly) (shape : Option (List Value)) :
    ∃ g, build n { inputShape := shape } = .ok g ∧
      g.nodes.map (·.name) = n.inputs ++ (n.allLayers.filter (·.isTested)).map (·.name) ∧
      ∀ before l after, n.allLayers = before ++ l :: after → l.isTested = true →
        ∃ i ∈ g.members, (g.node i).spec = some l ∧
          ((g.node i).parents.map fun e => some (g.originOf e)) = l.bottoms.map (origin n.inputs before.reverse) := by
  obtain ⟨g, g', hbuild, hg, hr, hreads⟩ := build_eq h shape
  have hspec : ∀ k, (g'.node k).spec = ((startNet n n.kept).node k).spec :=
    fun k => by rw [hr.nodes, hg.nodes]
  have hname : ∀ k, (g'.node k).name = ((startNet n n.kept).node k).name :=
    fun k => by rw [hr.nodes, hg.nodes]
  refine ⟨g', hbuild, ?_, fun before l after hsplit ht => ?_⟩
  · rw [← names_startNet, nodes, nodes, hr.members, hg.members, map_map, map_map]
    exact map_congr_left fun k _ => hname k
  · have hkept : n.kept =
        before.filter (·.isTested) ++ l :: after.filter (·.isTested) := by
      rw [NetSpec.kept, hsplit, filter_append, filter_cons, if_pos ht]
    have hat : n.kept[(before.filter (·.isTested)).length]? = some l := by
      rw [hkept]
      simp
    refine ⟨n.inputs.length + (before.filter (·.isTested)).length, ?_, ?_, ?_⟩
    · rw [hr.members, hg.members, members_startNet, mem_range]
      have hlt := (List.getElem?_eq_some_iff.mp hat).1
      omega
    · rw [hspec, node_startNet_layer hat]
      rfl
    · rw [hr.nodes]
      calc ((g.node (n.inputs.length + (before.filter (·.isTested)).length)).parents.map fun e =>
              some (g'.originOf e))
          = l.bottoms.map (traced n.inputs (before.filter (·.isTested))) := by
            rw [← (hreads _ l _ hkept).1]
            exact map_congr_left fun e _ => congrArg some (originOf_congr (hspec e.1) (hname e.1))
        _ = l.bottoms.map (origin n.inputs before.reverse) :=
            map_congr_left fun b _ => (h.origin_eq hsplit b).symm

end

theorem sizable_of_identity {kind : String} (hkind : l.type.kind? = .ok (some kind))
    (hrule : shapeRule? kind = some .identity) (hreads : l.bottoms ≠ []) : l.Sizable := by
  intro g i _ hk _ hlength hsources
  have hnode : (g.node i).kind = some kind := (Except.ok.inj (hkind.symm.trans hk)).symm
  cases hparents : (g.node i).parents with
  | nil =>
    rw [hparents] at hlength
    exact absurd (length_eq_zero_iff.mp hlength.symm) hreads
  | cons e es =>
    obtain ⟨dims, hdims, hfour⟩ := hsources e.1 (by simp [sources, hparents])
    refine ⟨dims, ?_, hfour⟩
    refine except_bind_eq_ok.mpr ⟨kind, by rw [hnode]; rfl, except_bind_eq_ok.mpr ⟨.identity, by rw [hrule]; rfl, ?_⟩⟩
    simp only [hparents, hdims]
    rfl

def smallLayer (name kind : String) (bottoms tops : List String) : LayerSpec :=
  { name := name, type := .named kind, bottoms := bottoms, tops := tops }

def smallNet (layers : List LayerSpec) : NetSpec := { inputs := ["data"], inputDims := [1, 1, 1, 1], layers := layers }

/-- A blob written under the name of its layer, then twice in place, by a rectifier and by a dropout. -/
def rewrittenNet : NetSpec :=
  smallNet [smallLayer "a" "Softmax" ["data"] ["a"], smallLayer "r" "ReLU" ["a"] ["a"],
    smallLayer "d" "Dropout" ["a"] ["a"], smallLayer "e" "Eltwise" ["a", "data"] ["e"]]

theorem orderly_rewrittenNet : rewrittenNet.Orderly where
  names := by decide
  own := by decide
  supplied := by decide
  kinds l hl _ := by
    rcases (by simpa [rewrittenNet, smallNet, NetSpec.allLayers] using hl) with rfl | rfl | rfl | rfl <;>
      exact ⟨_, rfl⟩
  sized l hl _ := by
    rcases (by simpa [rewrittenNet, smallNet, NetSpec.allLayers] using hl) with rfl | rfl | rfl | rfl <;>
      exact sizable_of_identity rfl rfl (by decide)
  feeds _ := rfl
  phases l hl := by
    rcases (by simpa [rewrittenNet, smallNet, NetSpec.allLayers] using hl) with rfl | rfl | rfl | rfl <;>
      exact ⟨_, rfl⟩
  once := by decide
  apart := by decide
  drops := by unfold DropsInPlace; decide
  first := by unfold NamesFirst; decide

/-- The last layer reads the rectifier, and not the dropout or the layer of the name of the blob. -/
theorem build_traces_blobs_rewritten : ∃ g, build rewrittenNet {} = .ok g ∧
    g.nodes.map (·.name) = ["data", "a", "r", "e"] ∧
    ∃ i ∈ g.members, (g.node i).spec = some (smallLayer "e" "Eltwise" ["a", "data"] ["e"]) ∧
      ((g.node i).parents.map fun e => some (g.originOf e)) =
        [some (.output (smallLayer "r" "ReLU" ["a"] ["a"]) 0), some (.input "data")] := by
  obtain ⟨g, hbuild, hnames, hreads⟩ := build_traces_blobs orderly_rewrittenNet none
  exact ⟨g, hbuild, hnames, hreads (rewrittenNet.allLayers.take 3) _ [] rfl (by decide)⟩

/-- **Blobs that are not traced.** A blob that a dropout writes under a new name is not found. A blob that is written
once more by the layer of its name is taken from the writer before. -/
theorem blobs_not_traced :
    (origin ["data"] [smallLayer "d" "Dropout" ["data"] ["b"]] "b" = some (.input "data") ∧
      build (smallNet [smallLayer "d" "Dropout" ["data"] ["b"], smallLayer "e" "ReLU" ["b"] ["e"]]) {} =
        .error (.report .conversion "Layer not found: b")) ∧
    (origin ["data"] [smallLayer "x" "Softmax" ["data"] ["x"], smallLayer "a" "ReLU" ["data"] ["x"]] "x" =
        some (.output (smallLayer "x" "Softmax" ["data"] ["x"]) 0) ∧
      ((build (smallNet [smallLayer "a" "ReLU" ["data"] ["x"], smallLayer "x" "Softmax" ["data"] ["x"],
          smallLayer "r" "ReLU" ["x"] ["r"]]) {}).toOption.map fun g => g.nodes.map fun v => (v.name, v.parents)) =
        some [("data", []), ("a", [(0, 0)]), ("x", [(0, 0)]), ("r", [(1, 0)])]) :=
  ⟨⟨rfl, rfl⟩, rfl, by decide +kernel⟩

end NetBridge.Prototxt
