import NetBridge.Proofs.FoldedBiases

/-!
# Graphs of functions

The graph of a function is built depth-first from its output. One step only adds to the graph, and leaves nothing open
of what it has expanded (`Explores`). So the graph has what is reached, with all edges (`graphOf_reached`).
-/

namespace NetBridge.Source.Cntk

/-! ## What functions read -/

/-- A function that gives an input, or a variable that is one. -/
structure Origin where
  item : Item
  isFunction : Bool

/-- The origin of an input: none for parameters and constants; placeholders are refused. -/
def origin (os : Objects) (v : Value) : Except Fault (Option Origin) := do
  let i ← os.target v
  if i.flag "is_output" then return some ⟨← os.part i "owner", true⟩
  else if i.flag "is_input" then return some ⟨i, false⟩
  else if i.flag "is_placeholder" then
    throw (.report .unsupported "PlaceHolder of placeholder is not supported.")
  else return none

def origins (os : Objects) (o : Item) : Except Fault (List (Option Origin)) := do (← sources o).mapM (origin os)

def Reads (os : Objects) (o : Item) (y : Origin) : Prop := ∃ ys, origins os o = .ok ys ∧ some y ∈ ys

/-- From a function on, those that give inputs of functions already reached. -/
def Reached (os : Objects) : Item → Item → Prop := Relation.ReflTransGen fun o f => Reads os o ⟨f, true⟩

def Listed (os : Objects) (root x : Item) : Prop :=
  Reached os root x ∨ ∃ o, Reached os root o ∧ ∃ y, Reads os o y ∧ y.item = x

def Edge (os : Objects) (root : Item) (a b : String) : Prop :=
  a ≠ b ∧ ∃ o, Reached os root o ∧ ∃ y, Reads os o y ∧ y.item.uid = a ∧ o.uid = b

variable {os : Objects} {root : Item} {t t' t'' : Traversal} {o x : Item} {y : Origin}

section
variable (huids : ∀ k o, os.items.find? k = some o → o.uid = k)
include huids

theorem find?_of_target {v : Value} (h : os.target v = .ok x) : os.items.find? x.uid = some x := by
  cases v with
  | handle uid =>
    have hx := Table.get_eq_ok.mp h
    rwa [huids uid x hx]
  | _ => cases h

theorem find?_of_part {name : String} (h : os.part o name = .ok x) : os.items.find? x.uid = some x := by
  obtain ⟨v, -, h⟩ := except_bind_eq_ok.mp h
  exact find?_of_target huids h

theorem find?_of_reads (h : Reads os o y) : os.items.find? y.item.uid = some y.item := by
  obtain ⟨ys, hys, hy⟩ := h
  obtain ⟨vs, -, hys⟩ := except_bind_eq_ok.mp hys
  obtain ⟨v, -, hv⟩ := exists_of_mem_mapM hys hy
  obtain ⟨i, hi, hv⟩ := except_bind_eq_ok.mp hv
  split at hv
  · obtain ⟨f, hf, hv⟩ := except_bind_eq_ok.mp hv
    cases hv
    exact find?_of_part huids hf
  · split at hv
    · cases hv
      exact find?_of_target huids hi
    · split at hv <;> cases hv

end

/-! ## The traversal by origins -/

def expand (os : Objects) (fuel : Nat) (o : Item) (t : Traversal) : Option Origin → Except Fault Traversal
  | none => .ok t
  | some y => if y.isFunction then visit os fuel (t.wire y.item o.uid) y.item else .ok (t.wire y.item o.uid)

theorem visit_succ {ys : List (Option Origin)} (hys : origins os o = .ok ys) (fuel : Nat) (t : Traversal) :
    visit os (fuel + 1) t o = if t.visited.contains o.uid then .ok t
      else ys.foldlM (expand os fuel o) { t with visited := o.uid :: t.visited } := by
  obtain ⟨vs, hvs, hmap⟩ := except_bind_eq_ok.mp hys
  rw [visit, ok_bind hvs]
  congr 1
  generalize ({ t with visited := o.uid :: t.visited } : Traversal) = t₁
  rw [mapM_eq_ok_iff] at hmap
  clear hys hvs
  induction hmap generalizing t₁ with
  | nil => rfl
  | cons hy _ ih =>
    obtain ⟨i, hi, hy⟩ := except_bind_eq_ok.mp hy
    rw [List.foldlM_cons, ok_bind hi]
    split at hy
    · obtain ⟨f, hf, hy⟩ := except_bind_eq_ok.mp hy
      cases hy
      rw [if_pos ‹_›, ok_bind hf]
      exact congrArg _ (funext ih)
    rw [if_neg ‹_›]
    split at hy
    · cases hy
      rw [if_pos ‹_›]
      exact ih _
    rw [if_neg ‹_›]
    split at hy <;> cases hy
    rw [if_neg ‹_›]
    exact ih t₁

/-! ## What a step adds -/

theorem mem_keys_wire {k r : String} :
    k ∈ (t.wire x r).graph.vertices.keys ↔ k = x.uid ∨ k ∈ t.graph.vertices.keys := by
  rw [Traversal.wire, Graph.keys_connect]
  split
  · rename_i h
    exact ⟨.inr, fun hk => hk.elim (fun e => e ▸ Graph.has_iff.mp h) id⟩
  · exact Graph.mem_keys_add

theorem mem_targetsOf_wire {a b r : String} (hr : r ∈ t.graph.vertices.keys) : b ∈ (t.wire x r).graph.targetsOf a ↔
    b ∈ t.graph.targetsOf a ∨ (a, b) = (x.uid, r) ∧ x.uid ≠ r := by
  rw [Traversal.wire, Graph.mem_targetsOf_connect]
  refine or_congr ?_ (and_congr_right fun _ => ?_)
  · split
    · rfl
    · rename_i h
      rw [Graph.targetsOf_add]
      split
      · rename_i e
        subst e
        exact iff_of_false List.not_mem_nil fun hb => h (Graph.has_iff.mpr (Graph.mem_keys_of_mem_targetsOf hb))
      · rfl
  · refine and_iff_left ?_
    split
    · rename_i hx
      exact ⟨Graph.has_iff.mp hx, hr⟩
    · exact ⟨Graph.mem_keys_add.mpr (.inl rfl), Graph.mem_keys_add.mpr (.inr hr)⟩

theorem item_of_wire {m r : String} {u : Vertex Item} (h : (t.wire x r).graph.bareOf m = some u) :
    t.graph.bareOf m = some u ∨ u.item = x := by
  rw [Traversal.wire, Graph.bareOf_connect] at h
  split at h
  · exact .inl h
  · rw [Graph.bareOf_add] at h
    split at h
    · cases h
      exact .inr rfl
    · exact .inl h

structure Grows (t t' : Traversal) : Prop where
  keys : ∀ k ∈ t.graph.vertices.keys, k ∈ t'.graph.vertices.keys
  edges : ∀ a, ∀ b ∈ t.graph.targetsOf a, b ∈ t'.graph.targetsOf a
  visited : t.visited <:+ t'.visited

theorem Grows.refl (t : Traversal) : Grows t t := ⟨fun _ h => h, fun _ _ h => h, List.suffix_rfl⟩

theorem Grows.trans (h : Grows t t') (h' : Grows t' t'') : Grows t t'' where
  keys k hk := h'.keys k (h.keys k hk)
  edges a b hb := h'.edges a b (h.edges a b hb)
  visited := h.visited.trans h'.visited

theorem Grows.wire {r : String} (x : Item) (hr : r ∈ t.graph.vertices.keys) : Grows t (t.wire x r) where
  keys _ hk := mem_keys_wire.mpr (.inr hk)
  edges _ _ hb := (mem_targetsOf_wire hr).mpr (.inl hb)
  visited := List.suffix_rfl

/-- All that the traversal has is reached from the root. -/
structure Sound (os : Objects) (root : Item) (t : Traversal) : Prop where
  items : ∀ m u, t.graph.bareOf m = some u → Listed os root u.item
  edges : ∀ a, ∀ b ∈ t.graph.targetsOf a, Edge os root a b
  visited : ∀ u ∈ t.visited, ∃ o, Reached os root o ∧ o.uid = u
  once : t.visited.Nodup

theorem Sound.wire (h : Sound os root t) (hin : o.uid ∈ t.graph.vertices.keys) (ho : Reached os root o)
    (hy : Reads os o y) : Sound os root (t.wire y.item o.uid) where
  items m u hu := (item_of_wire hu).elim (h.items m u) fun e => .inr ⟨o, ho, y, hy, e.symm⟩
  edges a b hb := by
    obtain hb | ⟨e, hne⟩ := (mem_targetsOf_wire hin).mp hb
    · exact h.edges a b hb
    · cases e
      exact ⟨hne, o, ho, y, hy, rfl, rfl⟩
  visited := h.visited
  once := h.once

/-- Nothing is left to do for what a function reads. -/
structure Linked (t : Traversal) (o : Item) (y : Origin) : Prop where
  key : y.item.uid ∈ t.graph.vertices.keys
  edge : y.item.uid ≠ o.uid → o.uid ∈ t.graph.targetsOf y.item.uid
  visited : y.isFunction → y.item.uid ∈ t.visited

theorem Linked.grow (h : Linked t o y) (hg : Grows t t') : Linked t' o y :=
  ⟨hg.keys _ h.key, fun hne => hg.edges _ _ (h.edge hne), fun hf => hg.visited.subset (h.visited hf)⟩

def Done (os : Objects) (t : Traversal) (o : Item) : Prop := ∀ y, Reads os o y → Linked t o y

/-- A part of the traversal: nothing is left to do for the functions that it has expanded. -/
structure Explores (os : Objects) (root : Item) (t t' : Traversal) : Prop where
  grows : Grows t t'
  sound : Sound os root t'
  done : ∀ p, Reached os root p → p.uid ∈ t'.visited → p.uid ∈ t.visited ∨ Done os t' p

theorem Explores.trans (h : Explores os root t t') (h' : Explores os root t' t'') : Explores os root t t'' where
  grows := h.grows.trans h'.grows
  sound := h'.sound
  done p hp hmem := by
    obtain hmem | hdone := h'.done p hp hmem
    · exact (h.done p hp hmem).imp id fun hdone y hy => (hdone y hy).grow h'.grows
    · exact .inr hdone

theorem Explores.of_visited (hg : Grows t t') (hs : Sound os root t') (h : t'.visited = t.visited) :
    Explores os root t t' :=
  ⟨hg, hs, fun _ _ hmem => .inl (h ▸ hmem)⟩

/-! ## The whole traversal -/

/-- Objects stand under their names, and each input of a function that is reached has an origin. -/
structure Whole (os : Objects) (root : Item) : Prop where
  uids : ∀ k o, os.items.find? k = some o → o.uid = k
  found : os.items.find? root.uid = some root
  origins : ∀ o, Reached os root o → ∃ ys, origins os o = .ok ys

section
variable (hw : Whole os root)
include hw

theorem Whole.find? (ho : Reached os root o) : os.items.find? o.uid = some o := by
  induction ho with
  | refl => exact hw.found
  | tail _ hreads _ => exact find?_of_reads hw.uids hreads

theorem Whole.find?_listed (hx : Listed os root x) : os.items.find? x.uid = some x := by
  obtain hx | ⟨o, -, y, hy, rfl⟩ := hx
  · exact hw.find? hx
  · exact find?_of_reads hw.uids hy

theorem Whole.visited_le (hs : Sound os root t) : t.visited.length ≤ os.items.size := by
  have hkeys : t.visited ⊆ os.items.keys := fun u hu => by
    obtain ⟨o, ho, rfl⟩ := hs.visited u hu
    exact Table.mem_keys_of_find? (hw.find? ho)
  simpa [Table.keys, Table.size] using (hs.once.subperm hkeys).length_le

end

/-- A function is in the graph, and there are steps for all functions that are not expanded yet. -/
structure Ready (os : Objects) (root o : Item) (fuel : Nat) (t : Traversal) : Prop where
  listed : o.uid ∈ t.graph.vertices.keys
  sound : Sound os root t
  steps : os.items.size < fuel + t.visited.length

theorem Ready.later {fuel : Nat} (h : Ready os root o fuel t) (h' : Explores os root t t') :
    Ready os root o fuel t' := by
  have hlength := h'.grows.visited.length_le
  have hsteps := h.steps
  exact ⟨h'.grows.keys _ h.listed, h'.sound, by omega⟩

/-- One origin after the other, all of them of one function. -/
theorem expand_all {fuel : Nat} (hstep : ∀ t y, Ready os root o fuel t → Reads os o y →
      ∃ t', expand os fuel o t y = .ok t' ∧ Explores os root t t' ∧ Linked t' o y)
    {ys : List (Option Origin)} (hys : ∀ y, some y ∈ ys → Reads os o y) (h : Ready os root o fuel t) :
    ∃ t', ys.foldlM (expand os fuel o) t = .ok t' ∧ Explores os root t t' ∧ ∀ y, some y ∈ ys → Linked t' o y := by
  induction ys generalizing t with
  | nil => exact ⟨t, rfl, .of_visited (.refl t) h.sound rfl, by simp⟩
  | cons y ys ih =>
    have hrest (y : Origin) (hy : some y ∈ ys) : Reads os o y := hys y (.tail _ hy)
    cases y with
    | none =>
      obtain ⟨t', ht', hexp, hlinked⟩ := ih hrest h
      exact ⟨t', ht', hexp, by simpa using hlinked⟩
    | some y =>
      obtain ⟨t₁, ht₁, h₁, hy⟩ := hstep t y h (hys y (.head _))
      obtain ⟨t₂, ht₂, h₂, hlinked⟩ := ih hrest (h.later h₁)
      refine ⟨t₂, by rw [List.foldlM_cons, ht₁]; exact ht₂, h₁.trans h₂, ?_⟩
      simpa using ⟨hy.grow h₂.grows, hlinked⟩

/-- A visit ends, and leaves nothing to do for what it has expanded. -/
theorem Whole.visit (hw : Whole os root) {fuel : Nat} (ho : Reached os root o) (h : Ready os root o fuel t) :
    ∃ t', visit os fuel t o = .ok t' ∧ Explores os root t t' ∧ o.uid ∈ t'.visited := by
  induction fuel generalizing t o with
  | zero =>
    have hsteps := h.steps
    have hle := hw.visited_le h.sound
    omega
  | succ fuel ih =>
    obtain ⟨ys, hys⟩ := hw.origins o ho
    rw [visit_succ hys]
    split
    · rename_i hvisited
      exact ⟨t, rfl, .of_visited (.refl t) h.sound rfl, List.contains_iff_mem.mp hvisited⟩
    rename_i hnew
    rw [List.contains_iff_mem] at hnew
    have hstep (t : Traversal) (y : Origin) (h : Ready os root o fuel t) (hy : Reads os o y) :
        ∃ t', expand os fuel o t y = .ok t' ∧ Explores os root t t' ∧ Linked t' o y := by
      have hwire : Explores os root t (t.wire y.item o.uid) :=
        .of_visited (.wire y.item h.listed) (h.sound.wire h.listed ho hy) rfl
      have hkey : y.item.uid ∈ (t.wire y.item o.uid).graph.vertices.keys := mem_keys_wire.mpr (.inl rfl)
      have hedge (hne : y.item.uid ≠ o.uid) : o.uid ∈ (t.wire y.item o.uid).graph.targetsOf y.item.uid :=
        (mem_targetsOf_wire h.listed).mpr (.inr ⟨rfl, hne⟩)
      obtain ⟨x, _ | _⟩ := y
      · exact ⟨_, rfl, hwire, hkey, hedge, by simp⟩
      · obtain ⟨t', ht', hrest, hmem⟩ := ih (ho.tail hy) ⟨hkey, hwire.sound, h.steps⟩
        exact ⟨t', ht', hwire.trans hrest, hrest.grows.keys _ hkey, fun hne => hrest.grows.edges _ _ (hedge hne),
          fun _ => hmem⟩
    have hready : Ready os root o fuel { t with visited := o.uid :: t.visited } := by
      have hsteps := h.steps
      refine ⟨h.listed, ⟨h.sound.items, h.sound.edges, ?_, ?_⟩, by simp only [List.length_cons]; omega⟩
      · exact List.forall_mem_cons.mpr ⟨⟨o, ho, rfl⟩, h.sound.visited⟩
      · exact List.nodup_cons.mpr ⟨hnew, h.sound.once⟩
    obtain ⟨t', ht', hexp, hlinked⟩ := expand_all hstep (fun y hy => ⟨ys, hys, hy⟩) hready
    have hmem : o.uid ∈ t'.visited := hexp.grows.visited.subset (.head _)
    refine ⟨t', ht', ⟨⟨hexp.grows.keys, hexp.grows.edges, (List.suffix_cons _ _).trans hexp.grows.visited⟩, hexp.sound,
      fun p hp hvisited => ?_⟩, hmem⟩
    obtain hvisited | hdone := hexp.done p hp hvisited
    · obtain heq | hvisited := List.mem_cons.mp hvisited
      · -- the same name is the same function
        obtain rfl : p = o := Option.some.inj ((hw.find? hp).symm.trans (heq ▸ hw.find? ho))
        refine .inr fun y ⟨zs, hzs, hy⟩ => hlinked y ?_
        rwa [Except.ok.inj (hys.symm.trans hzs)]
      · exact .inl hvisited
    · exact .inr hdone

theorem Explores.all (h : Explores os root t t') (ht : t.visited = []) (hroot : root.uid ∈ t'.visited)
    (ho : Reached os root o) : Done os t' o := by
  have hnew {p : Item} (hp : Reached os root p) (hmem : p.uid ∈ t'.visited) : Done os t' p :=
    (h.done p hp hmem).resolve_left (by simp [ht])
  induction ho with
  | refl => exact hnew .refl hroot
  | tail hp hreads ih => exact hnew (hp.tail hreads) ((ih _ hreads).visited rfl)

theorem Sound.start (os : Objects) (root : Item) : Sound os root { graph := ({} : Graph Item).add root.uid root } := by
  refine ⟨fun m u hu => ?_, fun a b hb => ?_, by simp, by simp⟩
  · rw [Graph.bareOf_add] at hu
    split at hu
    · cases hu
      exact .inl .refl
    · cases hu
  · rw [Graph.targetsOf_add] at hb
    split at hb <;> cases hb

/-- **The graph of a function.** If all inputs of the functions that are reached from the output have an origin, the
graph is built. Its vertices are just the functions that are reached and what they read, each under its name, and
its edges lead from what a function reads to the function; both ends know them. -/
theorem graphOf_reached {out : Value} (huids : ∀ k o, os.items.find? k = some o → o.uid = k)
    (hout : os.target out = .ok o) (hroot : os.part o "owner" = .ok root)
    (horigins : ∀ o, Reached os root o → ∃ ys, origins os o = .ok ys) :
    ∃ g, graphOf os [out] = .ok g ∧
      (∀ k x, (∃ v, g.vertices.find? k = some v ∧ v.item = x) ↔ Listed os root x ∧ x.uid = k) ∧
      ∀ a b, (b ∈ g.targetsOf a ↔ Edge os root a b) ∧ (a ∈ g.sourcesOf b ↔ Edge os root a b) := by
  have hw : Whole os root := ⟨huids, find?_of_part huids hroot, horigins⟩
  obtain ⟨t, ht, hexp, hmem⟩ := hw.visit .refl ⟨Graph.mem_keys_add.mpr (.inl rfl), .start os root, Nat.lt_succ_self _⟩
  have hg : graphOf os [out] = .ok t.graph.finish := by
    have hchosen : chosenOutput os [out] = .ok o := by
      rw [chosenOutput, List.mapM_cons, hout]
      rfl
    rw [graphOf, ok_bind hchosen, ok_bind hroot, ok_bind ht]
    rfl
  have hfiled := filed_graphOf hg
  have hdone {p : Item} (hp : Reached os root p) : Done os t p := hexp.all rfl hmem hp
  have hitem {k : String} {v : Vertex Item} (hv : t.graph.vertices.find? k = some v) : Listed os root v.item ∧
    v.item.uid = k :=
    ⟨hexp.sound.items k v.bare (by rw [Graph.bareOf, hv]; rfl), (hfiled.find? hv).2.1⟩
  have hedge (a b : String) : b ∈ t.graph.targetsOf a ↔ Edge os root a b := by
    refine ⟨hexp.sound.edges a b, ?_⟩
    rintro ⟨hne, p, hp, y, hy, rfl, rfl⟩
    exact (hdone hp y hy).edge hne
  refine ⟨_, hg, fun k x => ⟨?_, ?_⟩, fun a b => ⟨hedge a b, ?_⟩⟩
  · rintro ⟨v, hv, rfl⟩
    exact hitem hv
  · rintro ⟨hx, hk⟩
    have hkey : x.uid ∈ t.graph.vertices.keys := by
      obtain hx | ⟨p, hp, y, hy, rfl⟩ := hx
      · obtain rfl | ⟨p, hp, hreads⟩ := Relation.ReflTransGen.cases_tail_iff .. |>.mp hx
        · exact hexp.grows.keys _ (Graph.mem_keys_add.mpr (.inl rfl))
        · exact (hdone hp _ hreads).key
      · exact (hdone hp y hy).key
    obtain ⟨v, hv⟩ := Table.mem_keys_iff.mp hkey
    obtain ⟨hlisted, huid⟩ := hitem hv
    -- the same name is the same object
    exact ⟨v, hk ▸ hv, Option.some.inj ((hw.find?_listed hlisted).symm.trans (huid ▸ hw.find?_listed hx))⟩
  · exact Iff.trans ⟨hfiled.mirrored a b, hfiled.backed a b⟩ (hedge a b)

def loopedInput : Item := { uid := "x", properties := .ofList [("is_input", .bool true)] }

/-- A function that reads an input, itself and a block, which reads the function, the same input and a parameter. -/
def looped : Item :=
  { uid := "f", properties := .ofList [("op_name", .text "Plus"),
      ("inputs", .list [.handle "x", .handle "f.out", .handle "b.out"])] }

def loopedBlock : Item :=
  { uid := "b", properties := .ofList [("op_name", .text "Dense"), ("is_block", .bool true),
      ("block_arguments_mapping", .list [.tuple [.none, .handle "f.out"], .tuple [.none, .handle "x"],
        .tuple [.none, .handle "w"]])] }

def loopedObjects : Objects :=
  { items := .ofList ([loopedInput, looped, loopedBlock,
      { uid := "w", properties := .ofList [("is_parameter", .bool true)] },
      { uid := "f.out", properties := .ofList [("is_output", .bool true), ("owner", .handle "f")] },
      { uid := "b.out", properties := .ofList [("is_output", .bool true), ("owner", .handle "b")] }].map
        fun o => (o.uid, o)) }

theorem graphOf_reached_looped :
    ∃ g, graphOf loopedObjects [.handle "f.out"] = .ok g ∧
      (∀ k x, (∃ v, g.vertices.find? k = some v ∧ v.item = x) ↔ Listed loopedObjects looped x ∧ x.uid = k) ∧
      ∀ a b, (b ∈ g.targetsOf a ↔ Edge loopedObjects looped a b) ∧
        (a ∈ g.sourcesOf b ↔ Edge loopedObjects looped a b) := by
  have huids : ∀ e ∈ loopedObjects.items.entries, e.2.uid = e.1 := by decide +kernel
  have hfunction : origins loopedObjects looped =
      .ok [some ⟨loopedInput, false⟩, some ⟨looped, true⟩, some ⟨loopedBlock, true⟩] := rfl
  have hblock : origins loopedObjects loopedBlock = .ok [some ⟨looped, true⟩, some ⟨loopedInput, false⟩, none] := rfl
  have hreached {o : Item} (ho : Reached loopedObjects looped o) : o = looped ∨ o = loopedBlock := by
    induction ho with
    | refl => exact .inl rfl
    | tail _ hreads ih =>
      obtain ⟨xs, hxs, hf⟩ := hreads
      obtain rfl | rfl := ih
      · cases hfunction.symm.trans hxs
        simpa using hf
      · cases hblock.symm.trans hxs
        exact .inl (by simpa using hf)
  refine graphOf_reached (fun k o h => huids _ (Table.mem_of_findIn h)) rfl rfl fun o ho => ?_
  obtain rfl | rfl := hreached ho
  · exact ⟨_, hfunction⟩
  · exact ⟨_, hblock⟩

end NetBridge.Source.Cntk
