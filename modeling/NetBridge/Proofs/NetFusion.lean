import NetBridge.Proofs.MergeOrder
import NetBridge.Proofs.RunSteps

/-!
# Fusing the nodes of a net

During a fusion the nodes that are still there stay linked (`Linked`), with the operands that the merges so far make of
the old ones (`Fusing`). A survivor keeps their order exactly if it is that of their last moves
(`fuse_keeps_operands_iff`).
-/

namespace NetBridge.Prototxt

open Run Net List Merge

/-! ## Links -/

variable {g h : Net} {i p : Nat} {o : Int}

namespace Net

/-- The links between some nodes of a net: each knows its readers, once, and what it reads, and all these are
among them. -/
structure Linked (g : Net) (live : List Nat) : Prop where
  inside : ∀ i ∈ live, i < g.pool.size
  once : ∀ i ∈ live, (g.node i).children.Nodup
  children : ∀ i ∈ live, ∀ j ∈ (g.node i).children, j ∈ live
  sources : ∀ i ∈ live, ∀ p ∈ g.sources i, p ∈ live
  agree : ∀ i ∈ live, ∀ j ∈ live, j ∈ (g.node i).children ↔ i ∈ g.sources j

/-- Some nodes of a net read only each other, and both ends of a link between them know it. -/
structure Mutual (g : Net) (live : List Nat) : Prop where
  closed : ∀ v ∈ live, ∀ p ∈ g.sources v, p ∈ live
  agree : ∀ p ∈ live, ∀ c ∈ live, c ∈ (g.node p).children ↔ p ∈ g.sources c

theorem node_update (g : Net) (i k : Nat) (f : Node → Node) :
    (g.update i f).node k = if k = i ∧ i < g.pool.size then f (g.node k) else g.node k := by
  unfold node update
  rcases Nat.lt_or_ge k g.pool.size with hk | hk
  · by_cases h : k = i
    · subst h
      simp [hk, Array.getElem_modify]
    · simp [hk, h, Array.getElem_modify, Ne.symm h]
  · have hno : ¬(k = i ∧ i < g.pool.size) := by omega
    simp [hk, hno]

def SameKinds (g h : Net) : Prop :=
  ∀ k, (h.node k).kind = (g.node k).kind ∧ (h.node k).spec = (g.node k).spec

theorem SameKinds.trans {k : Net} (hg : g.SameKinds h) (hh : h.SameKinds k) : g.SameKinds k := by
  intro v
  rw [(hh v).1, (hh v).2]
  exact hg v

theorem SameKinds.update (g : Net) (i : Nat) {f : Node → Node} (hk : ∀ n, (f n).kind = n.kind)
    (hs : ∀ n, (f n).spec = n.spec) : g.SameKinds (g.update i f) := by
  intro v
  rw [node_update]
  split
  · exact ⟨hk _, hs _⟩
  · exact ⟨rfl, rfl⟩

theorem SameKinds.connect (g : Net) (c p : Nat) (o : Int) : g.SameKinds (g.connect c p o) := by
  unfold Net.connect
  dsimp only
  have hread := SameKinds.update g c (f := fun n => { n with parents := n.parents ++ [(p, o)] }) (fun _ => rfl)
    fun _ => rfl
  split
  · exact hread
  · exact hread.trans (.update _ _ (fun _ => rfl) fun _ => rfl)

theorem SameKinds.redirectReader (g : Net) (c : Nat) : g.SameKinds (redirectReader i p o g c) :=
  (SameKinds.update g c (f := fun n => { n with parents := n.parents.filter fun e => e.1 ≠ i }) (fun _ => rfl)
    fun _ => rfl).trans (.connect _ c p o)

end Net

@[simp] theorem size_update (g : Net) (i : Nat) (f : Node → Node) : (g.update i f).pool.size = g.pool.size := by
  simp [update]

variable {f : Fusion} {cs : List Nat} {v : Nat} {s s' : Session}

section
variable {c : Nat}

theorem size_connect : (g.connect c p o).pool.size = g.pool.size := by
  unfold connect
  dsimp only
  split <;> simp

theorem members_connect : (g.connect c p o).members = g.members := by
  unfold connect
  dsimp only
  split <;> rfl

theorem node_connect (hr : c < g.pool.size) (hp : p < g.pool.size) (k : Nat) :
    ((g.connect c p o).node k).parents =
        (if k = c then (g.node k).parents ++ [(p, o)] else (g.node k).parents) ∧
      ((g.connect c p o).node k).children =
        if k = p ∧ c ∉ (g.node k).children then (g.node k).children ++ [c]
        else (g.node k).children := by
  have hchildren : ∀ j, ((g.update c fun n => { n with parents := n.parents ++ [(p, o)] }).node j).children =
      (g.node j).children := by
    intro j
    rw [node_update]
    split <;> rfl
  have hparents : ((g.update c fun n => { n with parents := n.parents ++ [(p, o)] }).node k).parents =
      if k = c then (g.node k).parents ++ [(p, o)] else (g.node k).parents := by
    rw [node_update]
    by_cases h : k = c <;> simp [h, hr]
  unfold connect
  dsimp only
  rw [hchildren]
  by_cases hc : c ∈ (g.node p).children
  · rw [if_pos (by simpa using hc), hparents, hchildren]
    refine ⟨rfl, ?_⟩
    rw [if_neg]
    rintro ⟨rfl, hno⟩
    exact hno hc
  · rw [if_neg (by simpa using hc), node_update, size_update]
    by_cases hk : k = p
    · subst hk
      simp only [hp, and_self, ite_true, hparents, hchildren]
      exact ⟨trivial, by rw [if_pos ⟨trivial, hc⟩]⟩
    · simp [hk, hparents, hchildren]

theorem node_redirectReader (hr : c < g.pool.size) (hp : p < g.pool.size) (k : Nat) :
    ((redirectReader i p o g c).node k).parents =
        (if k = c then (g.node k).parents.filter (·.1 ≠ i) ++ [(p, o)]
          else (g.node k).parents) ∧
      ((redirectReader i p o g c).node k).children =
        if k = p ∧ c ∉ (g.node k).children then (g.node k).children ++ [c]
        else (g.node k).children := by
  unfold redirectReader
  obtain ⟨hparents, hchildren⟩ := node_connect
    (g := g.update c fun n => { n with parents := n.parents.filter fun e => e.1 ≠ i })
    (by simpa using hr) (by simpa using hp) k
  rw [hparents, hchildren, node_update]
  by_cases h : k = c <;> simp [h, hr]

theorem size_redirectReader : (redirectReader i p o g c).pool.size = g.pool.size := by
  simp [redirectReader, size_connect]

/-- What is left of a net when readers of a node read its parent instead. -/
structure Redirected (g : Net) (i p : Nat) (o : Int) (cs : List Nat) (h : Net) : Prop where
  members : h.members = g.members
  size : h.pool.size = g.pool.size
  kinds : g.SameKinds h
  parents : cs.Nodup → ∀ k, (h.node k).parents =
    if k ∈ cs then (g.node k).parents.filter (·.1 ≠ i) ++ [(p, o)] else (g.node k).parents
  sources : ∀ k x, x ∈ h.sources k ↔ if k ∈ cs then x ∈ g.sources k ∧ x ≠ i ∨ x = p else x ∈ g.sources k
  other : ∀ k ≠ p, (h.node k).children = (g.node k).children
  children : ∀ j, j ∈ (h.node p).children ↔ j ∈ (g.node p).children ∨ j ∈ cs
  once : (g.node p).children.Nodup → (h.node p).children.Nodup

theorem mem_sources_redirectReader (hc : c < g.pool.size) (hp : p < g.pool.size) (k x : Nat) :
    x ∈ (redirectReader i p o g c).sources k ↔
      if k = c then x ∈ g.sources k ∧ x ≠ i ∨ x = p else x ∈ g.sources k := by
  rw [sources, (node_redirectReader hc hp k).1]
  split
  · simp only [sources, mem_map, mem_append, mem_filter, mem_singleton]
    grind
  · rfl

theorem redirected (hin : ∀ c ∈ cs, c < g.pool.size) (hp : p < g.pool.size) :
    Redirected g i p o cs (cs.foldl (redirectReader i p o) g) := by
  induction cs generalizing g with
  | nil => exact ⟨rfl, rfl, fun _ => ⟨rfl, rfl⟩, by simp, by simp, by simp, by simp, id⟩
  | cons c cs ih =>
    have hc := hin c (.head _)
    have hrest := ih (g := redirectReader i p o g c) (fun d hd => by rw [size_redirectReader]; exact hin d (.tail _ hd))
      (by rwa [size_redirectReader])
    have hnode (k : Nat) := node_redirectReader (i := i) (o := o) hc hp k
    rw [foldl_cons]
    refine ⟨hrest.members.trans (by rw [redirectReader, members_connect, update]), hrest.size.trans size_redirectReader,
      (SameKinds.redirectReader g c).trans hrest.kinds, fun hcs k => ?_, fun k x => ?_, fun k hk => ?_, fun j => ?_,
      fun h => hrest.once ?_⟩
    · obtain ⟨hnew, hcs⟩ := nodup_cons.mp hcs
      rw [hrest.parents hcs, (hnode k).1]
      by_cases hk : k = c
      · subst hk
        simp [hnew]
      · simp [hk]
    · rw [hrest.sources, mem_sources_redirectReader hc hp]
      by_cases hk : k = c <;> by_cases hkc : k ∈ cs <;> simp only [hk] <;> grind
    · rw [hrest.other k hk, (hnode k).2, if_neg (fun h => hk h.1)]
    · rw [hrest.children, (hnode p).2]
      by_cases hmem : c ∈ (g.node p).children <;> simp <;> grind
    · rw [(hnode p).2]
      split
      · rename_i hnew
        grind [nodup_append]
      · exact h

/-- What is left of the links when a node is taken out between its parent and its readers. -/
structure Bypassed (g : Net) (i p : Nat) (h : Net) : Prop where
  members : h.members = g.members
  size : h.pool.size = g.pool.size
  kinds : g.SameKinds h
  sources : ∀ k x, x ∈ h.sources k ↔
    if k ∈ (g.node i).children then x ∈ g.sources k ∧ x ≠ i ∨ x = p else x ∈ g.sources k
  children : ∀ k j, j ∈ (h.node k).children ↔
    if k = p then j ∈ (g.node i).children ∧ j ≠ i else j ∈ (g.node k).children

theorem bypass_only (hin : ∀ c ∈ (g.node i).children, c < g.pool.size) (hp : p < g.pool.size)
    (honly : (g.node p).children = [i]) : ∃ h, bypass g i p o = .ok h ∧ Bypassed g i p h ∧
      (∀ k, (g.node k).children.Nodup → (h.node k).children.Nodup) ∧
      ((g.node i).children.Nodup → ∀ k, (h.node k).parents = if k ∈ (g.node i).children then
        (g.node k).parents.filter (·.1 ≠ i) ++ [(p, o)] else (g.node k).parents) := by
  have hr := redirected (o := o) (i := i) hin hp
  have hnd := hr.once (by simp [honly])
  generalize hg₁ : (g.node i).children.foldl (redirectReader i p o) g = g₁ at *
  have htest : (g₁.node p).children.contains i = true := by
    simp [hr.children, honly]
  refine ⟨g₁.update p fun n => { n with children := n.children.erase i }, ?_,
    ⟨hr.members, by simpa using hr.size, ?_, ?_, ?_⟩, ?_, ?_⟩
  · rw [bypass]
    simp only [hg₁, htest]
    rfl
  · exact hr.kinds.trans (.update _ _ (fun _ => rfl) fun _ => rfl)
  · intro k x
    rw [← hr.sources, sources, node_update]
    split <;> rfl
  · intro k j
    rw [node_update]
    by_cases hk : k = p
    · subst hk
      grind [hr.children, hr.size]
    · simp only [hk, false_and, ite_false, hr.other k hk]
  · intro k hk
    rw [node_update]
    split
    · rename_i h
      exact h.1 ▸ hnd.erase i
    · by_cases hkp : k = p
      · exact hkp ▸ hnd
      · rwa [hr.other k hkp]
  · intro h k
    rw [← hr.parents h, node_update]
    split <;> rfl

end

theorem Net.mem_sources {h : Net} {v x : Nat} : x ∈ h.sources v ↔ ∃ e ∈ (h.node v).parents, e.1 = x := by
  simp [sources]

namespace Net

variable {h' : Net} {live live' : List Nat}

theorem Linked.mutual (hl : h.Linked live) : h.Mutual live := ⟨hl.sources, hl.agree⟩

theorem Mutual.only (hm : h.Mutual live) (hi : i ∈ live) (hparents : (h.node i).parents = [(p, o)])
    (hlength : (h.node p).children.length = 1) : p ∈ live ∧ (h.node p).children = [i] := by
  have hp : p ∈ h.sources i := by simp [sources, hparents]
  have hlive := hm.closed i hi p hp
  obtain ⟨c, hc⟩ := length_eq_one_iff.mp hlength
  have hmem := (hm.agree p hlive i hi).mpr hp
  rw [hc, mem_singleton] at hmem
  exact ⟨hlive, by rw [hc, hmem]⟩

section
variable (hsource : h.sources i = [p]) (hchild : (h.node p).children = [i])
  (hlive : ∀ v, v ∈ live' ↔ v ∈ live ∧ v ≠ i) (hb : Bypassed h i p h')
include hsource hchild hlive hb

theorem Mutual.without (hm : h.Mutual live) (hi : i ∈ live) : h'.Mutual live' := by
  have hp : p ∈ live := hm.closed i hi p (by simp [hsource])
  refine ⟨fun v hv x hx => ?_, fun v hv w hw => ?_⟩
  · obtain ⟨hv, hvi⟩ := (hlive v).mp hv
    rw [hlive]
    rw [hb.sources] at hx
    split at hx
    · rename_i hread
      rcases hx with ⟨hx, hxi⟩ | rfl
      · exact ⟨hm.closed v hv x hx, hxi⟩
      · -- the parent of a node that reads itself has no other reader
        refine ⟨hp, fun e => hvi ?_⟩
        rwa [← e, hchild, mem_singleton] at hread
    · rename_i hread
      refine ⟨hm.closed v hv x hx, fun e => hread ?_⟩
      exact (hm.agree i hi v hv).mpr (e ▸ hx)
  · obtain ⟨hv, hvi⟩ := (hlive v).mp hv
    obtain ⟨hw, hwi⟩ := (hlive w).mp hw
    rw [hb.children, hb.sources]
    by_cases hvp : v = p
    · subst hvp
      have hno : v ∉ h.sources w := fun hr => hwi (by simpa [hchild] using (hm.agree v hv w hw).mpr hr)
      simp [hwi, hno]
    · simp [hvp, hvi, hm.agree v hv w hw]

theorem Linked.without (hl : h.Linked live) (hi : i ∈ live)
    (honce : ∀ k, (h.node k).children.Nodup → (h'.node k).children.Nodup) : h'.Linked live' := by
  have hm' := hl.mutual.without hsource hchild hlive hb hi
  refine ⟨fun v hv => ?_, fun v hv => honce v (hl.once v ((hlive v).mp hv).1), fun v hv j hj => ?_, hm'.closed,
    hm'.agree⟩
  · exact hb.size ▸ hl.inside v ((hlive v).mp hv).1
  · obtain ⟨hv, hne⟩ := (hlive v).mp hv
    rw [hb.children] at hj
    rw [hlive]
    split at hj
    · exact ⟨hl.children i hi j hj.1, hj.2⟩
    · rename_i hvp
      refine ⟨hl.children v hv j hj, fun e => hvp ?_⟩
      simpa [hsource] using (hl.agree v hv i hi).mp (e ▸ hj)

end

end Net

/-! ## One merge -/

def remaining (g : Net) (gone : List Nat) : List Nat := g.members.filter (· ∉ gone)

theorem mem_remaining {g : Net} {gone : List Nat} : v ∈ remaining g gone ↔ v ∈ g.members ∧ v ∉ gone := by
  simp [remaining]

def live (g : Net) (ms : List Merge) : List Nat := g.members.filter (· ∉ ms.map (·.node))

/-- A net on which some merges have been made, each into the only parent of its node. -/
structure Fusing (g : Net) (ms : List Merge) (h : Net) : Prop where
  members : h.members = g.members
  links : h.Linked (live g ms)
  merged : ∀ m ∈ ms, (h.node m.node).parents = [(m.parent, m.output)]
  parents : ∀ v ∈ live g ms, (h.node v).parents = ms.foldl (fun ps m => m.redirect ps) (g.node v).parents
  apart : ∀ v ∈ live g ms, Merge.Apart ms (g.node v).parents

section
variable {h' : Net} {ms : List Merge}

theorem mem_live_concat : v ∈ live g (ms ++ [⟨i, p, o⟩]) ↔ v ∈ live g ms ∧ v ≠ i := by
  simp only [live, mem_filter, map_append, map_cons, map_nil, mem_append, mem_singleton,
    decide_eq_true_eq, not_or, and_assoc]

theorem Fusing.follow_mem (hf : Fusing g ms h) (hv : v ∈ live g ms) {e : Nat × Int}
    (he : e ∈ (g.node v).parents) : (follow ms e).1 ∈ h.sources v := by
  obtain ⟨a, ha, hae⟩ := follow_mem_settled ms he
  rw [mem_sources, hf.parents v hv, foldl_redirect]
  exact ⟨_, mem_map_of_mem ha, by rw [hae]⟩

theorem Fusing.bypass (hf : Fusing g ms h) (hi : i ∈ live g ms) (hparents : (h.node i).parents = [(p, o)])
    (honly : (h.node p).children.length = 1) (hb : bypass h i p o = .ok h') :
    Fusing g (ms ++ [⟨i, p, o⟩]) h' := by
  have hsource : h.sources i = [p] := by simp [sources, hparents]
  obtain ⟨hp, hchild⟩ := hf.links.mutual.only hi hparents honly
  -- nobody else reads the parent
  have halone : ∀ v ∈ live g ms, p ∈ h.sources v → v = i := fun v hv hread => by
    have := (hf.links.agree p hp v hv).mpr hread
    rwa [hchild, mem_singleton] at this
  obtain ⟨g', hg', hby, honce, hnode⟩ := bypass_only
    (fun c hc => hf.links.inside c (hf.links.children i hi c hc)) (hf.links.inside p hp) hchild
  replace hnode := hnode (hf.links.once i hi)
  obtain rfl : g' = h' := by
    rw [hg'] at hb
    exact Except.ok.inj hb
  have hreads : ∀ v ∈ live g ms, v ≠ i → (g'.node v).parents = (⟨i, p, o⟩ : Merge).redirect (h.node v).parents := by
    intro v hv hne
    rw [hnode, redirect]
    have hiff : v ∈ (h.node i).children ↔ (h.node v).parents.any (·.1 = i) = true := by
      rw [hf.links.agree i hi v hv, mem_sources]
      simp
    by_cases hv' : v ∈ (h.node i).children
    · rw [if_pos hv', if_pos (hiff.mp hv')]
    · rw [if_neg hv', if_neg (mt hiff.mpr hv')]
  refine ⟨hby.members.trans hf.members, ?_, ?_, ?_, ?_⟩
  · exact hf.links.without hsource hchild (fun _ => mem_live_concat) hby hi honce
  · intro m hm
    rcases mem_append.mp hm with hm | hm
    · have hdead : m.node ∉ (h.node i).children := fun hc => by
        have := hf.links.children i hi _ hc
        rw [live, mem_filter] at this
        exact (of_decide_eq_true this.2) (mem_map_of_mem hm)
      rw [hnode, if_neg hdead, hf.merged m hm]
    · obtain rfl := mem_singleton.mp hm
      rw [hnode, hparents]
      split
      · -- a node that reads itself
        rename_i hself
        have : i ∈ h.sources i := (hf.links.agree i hi i hi).mp hself
        rw [hsource, mem_singleton] at this
        simp [this]
      · rfl
  · intro v hv
    obtain ⟨hv, hne⟩ := mem_live_concat.mp hv
    rw [hreads v hv hne, hf.parents v hv, foldl_append]
    rfl
  · intro v hv
    obtain ⟨hv, hne⟩ := mem_live_concat.mp hv
    have hfar : ∀ e ∈ (g.node v).parents, (follow ms e).1 ≠ p := fun e he hep =>
      hne (halone v hv (hep ▸ hf.follow_mem hv he))
    intro a ha b hb hmoved hsame
    have hapart := hf.apart v hv a ha b hb
    rw [lastMove_concat] at hmoved ⊢
    rw [lastMove_concat]
    rw [follow_concat, follow_concat, apply, apply] at hsame
    by_cases ha' : (follow ms a).1 = i <;> by_cases hb' : (follow ms b).1 = i
    · simp [ha', hb']
    · simp only [ha', hb'] at hsame
      exact absurd hsame.symm (hfar b hb)
    · simp only [ha', hb'] at hsame
      exact absurd hsame (hfar a ha)
    · simp only [ha', hb'] at hmoved hsame ⊢
      exact hapart hmoved hsame

structure Net.SameLinks (h h' : Net) : Prop where
  members : h'.members = h.members
  size : h'.pool.size = h.pool.size
  parents : ∀ k, (h'.node k).parents = (h.node k).parents
  children : ∀ k, (h'.node k).children = (h.node k).children

theorem Net.SameLinks.update (h : Net) (k : Nat) {f : Node → Node} (hp : ∀ n, (f n).parents = n.parents)
    (hc : ∀ n, (f n).children = n.children) : h.SameLinks (h.update k f) := by
  refine ⟨rfl, size_update h k f, fun j => ?_, fun j => ?_⟩
  · rw [node_update]
    split
    · exact hp _
    · rfl
  · rw [node_update]
    split
    · exact hc _
    · rfl

theorem Net.SameLinks.sources (hs : h.SameLinks h') (v : Nat) : h'.sources v = h.sources v := by
  rw [Net.sources, Net.sources, hs.parents]

theorem Fusing.same (hf : Fusing g ms h) (hs : h.SameLinks h') : Fusing g ms h' := by
  refine ⟨hs.members.trans hf.members, ?_, fun m hm => ?_, fun v hv => ?_, hf.apart⟩
  · exact ⟨fun v hv => hs.size ▸ hf.links.inside v hv, fun v hv => hs.children v ▸ hf.links.once v hv,
      fun v hv j hj => hf.links.children v hv j (hs.children v ▸ hj),
      fun v hv x hx => hf.links.sources v hv x (hs.sources v ▸ hx),
      fun v hv j hj => by rw [hs.children, hs.sources]; exact hf.links.agree v hv j hj⟩
  · rw [hs.parents, hf.merged m hm]
  · rw [hs.parents, hf.parents v hv]

/-! ## Whole nets -/

def Fusion.Spares (f : Fusion) : Prop := ∀ (p i : Nat) (h : Net), h.SameLinks (f.merge p i h)

theorem spares_rectifierFusion (kinds : Option (List String)) : (rectifierFusion kinds).Spares :=
  fun p _ h => .update h p (fun _ => rfl) fun _ => rfl

theorem spares_scalingFusion : scalingFusion.Spares :=
  fun p _ h => .update h p (fun _ => rfl) fun _ => rfl

def Fused (g : Net) (fused : List Nat) (s : Session) : Prop :=
  ∃ ms, ms.map (·.node) = fused ∧ Fusing g ms s.net

theorem fuseNode_outcome (f : Fusion) (i : Nat) (s : Session) :
    (fuseNode f i).outcome s =
      match (s.net.node i).parents with
      | [(p, o)] =>
        if (s.net.node p).children.length ≠ 1 then (.ok false, s)
        else match f.applies s.net p i with
          | .error e => (.error e, s)
          | .ok false => (.ok false, s)
          | .ok true => match bypass s.net i p o with
            | .error e => (.error e, s)
            | .ok h => (.ok true, { s with net := f.merge p i h })
      | _ => (.ok false, s) := by
  unfold fuseNode
  rw [outcome_bind]
  have hcurrent : (current).outcome s = (.ok s.net, s) := rfl
  rw [hcurrent]
  dsimp only
  rcases (s.net.node i).parents with _ | ⟨⟨p, o⟩, _ | ⟨e, es⟩⟩
  · rfl
  · dsimp only
    split
    · rfl
    · cases f.applies s.net p i with
      | error e => rfl
      | ok b =>
        cases b with
        | false => rfl
        | true => cases Prototxt.bypass s.net i p o <;> rfl
  · rfl

theorem fuseNode_spec (hf : f.Spares) {fused : List Nat} (hi : i ∈ g.members) (hnew : i ∉ fused) :
    Triple (Fused g fused) (fuseNode f i) fun b => Fused g (if b then fused ++ [i] else fused) := by
  rintro s ⟨ms, rfl, hfusing⟩ b s' hrun
  have hkeep : Fused g (ms.map (·.node)) s := ⟨ms, rfl, hfusing⟩
  have hlive : i ∈ live g ms := mem_filter.mpr ⟨hi, decide_eq_true hnew⟩
  rw [fuseNode_outcome] at hrun
  split at hrun
  · rename_i p o hparents
    split at hrun
    · cases hrun
      exact hkeep
    · rename_i honly
      split at hrun
      · cases hrun
      · cases hrun
        exact hkeep
      · split at hrun
        · cases hrun
        · rename_i h' hb'
          cases hrun
          exact ⟨ms ++ [⟨i, p, o⟩], by simp, (hfusing.bypass hlive hparents (by simpa using honly) hb').same
            (hf p i h')⟩
  · cases hrun
    exact hkeep

def merges (g g' : Net) : List Merge :=
  (g.members.filter (· ∉ g'.members)).filterMap fun i =>
    match (g'.node i).parents with
    | [(p, o)] => some ⟨i, p, o⟩
    | _ => none

theorem merges_eq (hf : Fusing g ms h) (hlisted : g.members.filter (· ∈ ms.map (·.node)) = ms.map (·.node)) :
    merges g (h.replaced (live g ms)) = ms := by
  have hgone : g.members.filter (· ∉ live g ms) = ms.map (·.node) := by
    rw [← hlisted]
    refine filter_congr fun i hi => ?_
    by_cases hm : i ∈ ms.map (·.node) <;> simp only [live, mem_filter, hi] <;> simp
  have hnode : ∀ i, (h.replaced (live g ms)).node i = h.node i := fun _ => rfl
  have hmembers : (h.replaced (live g ms)).members = live g ms := rfl
  rw [merges, hmembers, hgone, filterMap_map]
  simp only [hnode]
  conv => rhs; rw [← filterMap_some (l := ms)]
  refine filterMap_congr fun m hm => ?_
  simp only [Function.comp, hf.merged m hm]

theorem fuse_eq_ok : (fuse f).outcome s = (.ok (), s') ↔
    ∃ fused t, (s.net.members.filterM (fuseNode f)).outcome s = (.ok fused, t) ∧
      s' = { t with net := t.net.replaced (remaining s.net fused) } := by
  have hlist (fused : List Nat) : s.net.members.filter (fun i => !fused.contains i) = remaining s.net fused :=
    filter_congr fun i _ => by simp only [contains_eq_mem, decide_not]
  constructor
  · intro hrun
    obtain ⟨g, _, ⟨⟩, hrun⟩ := step_cases hrun
    obtain ⟨fused, t, hloop, ⟨⟩⟩ := step_cases hrun
    exact ⟨fused, t, hloop, by rw [hlist]⟩
  · rintro ⟨fused, t, hloop, rfl⟩
    refine bind_ok rfl (bind_ok hloop ?_)
    rw [← hlist]
    rfl

theorem fuse_spec (hf : f.Spares) (hnodup : s.net.members.Nodup)
    (hlinks : s.net.Linked s.net.members) (hrun : (fuse f).outcome s = (.ok (), s')) :
    ∃ h, Fusing s.net (merges s.net s'.net) h ∧ s'.net.members = live s.net (merges s.net s'.net) ∧
      ∀ v, s'.net.node v = h.node v := by
  have hall : live s.net [] = s.net.members := by simp [live]
  have hstart : Fused s.net [] s :=
    ⟨[], rfl, rfl, hall ▸ hlinks, nofun, fun _ _ => rfl, fun _ _ _ _ _ _ h => absurd rfl h⟩
  obtain ⟨fused, t, hloop, rfl⟩ := fuse_eq_ok.mp hrun
  -- the nodes merged so far, in the order of the net
  have hinv : Fused s.net fused t ∧ s.net.members.filter (· ∈ fused) = fused := by
    refine Triple.filterM (I := fun done fused t => Fused s.net fused t ∧ done.filter (· ∈ fused) = fused) ?_
      s ⟨hstart, rfl⟩ fused t hloop
    rintro done i todo kept hl u ⟨hu, hkept⟩ b u' hstep
    have hi : i ∉ done := not_mem_done hnodup hl
    have hnew : i ∉ kept := fun h => hi (mem_of_mem_filter (hkept ▸ h))
    refine ⟨fuseNode_spec hf (by rw [hl]; simp) hnew u hu b u' hstep, ?_⟩
    rw [filter_append]
    cases b with
    | false => simpa [hnew] using hkept
    | true =>
      have hsame : done.filter (· ∈ kept ++ [i]) = done.filter (· ∈ kept) := filter_congr fun j hj => by
        have : j ≠ i := fun e => hi (e ▸ hj)
        simp [this]
      rw [if_pos rfl, hsame, hkept]
      simp
  obtain ⟨⟨ms, rfl, hfusing⟩, hlisted⟩ := hinv
  have hlive : remaining s.net (ms.map (·.node)) = live s.net ms := rfl
  have hmerges := merges_eq hfusing hlisted
  rw [hlive]
  exact ⟨t.net, by rwa [hmerges], by rw [hmerges]; rfl, fun _ => rfl⟩

end

/-- **Operands under a fusion.** In a net whose links agree, a node that survives a fusion reads what the
operands it had have been merged into. They stand in their old places exactly if the operands that are not
merged come first and each of the others is moved later than all before it. -/
theorem fuse_keeps_operands_iff {f : Fusion}
    (hf : f = openFusion ∨ f = scalingFusion ∨ ∃ kinds, f = rectifierFusion kinds) {s s' : Session}
    (hnodup : s.net.members.Nodup) (hlinks : s.net.Linked s.net.members)
    (hrun : (fuse f).outcome s = (.ok (), s')) {v : Nat} (hv : v ∈ s'.net.members) :
    (∀ e ∈ (s.net.node v).parents, (Merge.follow (merges s.net s'.net) e).1 ∈ s'.net.members) ∧
      (s'.net.node v).parents = (Merge.settled (merges s.net s'.net) (s.net.node v).parents).map
        (Merge.follow (merges s.net s'.net)) ∧
      ((s'.net.node v).parents = (s.net.node v).parents.map (Merge.follow (merges s.net s'.net)) ↔
        Merge.InOrder (merges s.net s'.net) (s.net.node v).parents) := by
  have hspares : f.Spares := by
    rcases hf with rfl | rfl | ⟨kinds, rfl⟩
    · exact fun _ _ _ => ⟨rfl, rfl, fun _ => rfl, fun _ => rfl⟩
    · exact spares_scalingFusion
    · exact spares_rectifierFusion kinds
  obtain ⟨h, hfusing, hmembers, hnode⟩ := fuse_spec hspares hnodup hlinks hrun
  rw [hmembers] at hv ⊢
  rw [hnode, hfusing.parents v hv, foldl_redirect_eq_map_iff (hfusing.apart v hv), foldl_redirect]
  exact ⟨fun e he => hfusing.links.sources v hv _ (hfusing.follow_mem hv he), rfl, .rfl⟩

/-- A rectified convolution of `x`, joined with `x` once behind it and once before it. -/
def joinedNet : Net := {
  pool := #[
    { name := "x", kind := some "Data", children := [1, 3, 4] },
    { name := "c", kind := some "Convolution", parents := [(0, 0)], children := [2] },
    { name := "r", kind := some "ReLU", parents := [(1, 0)], children := [3, 4] },
    { name := "behind", kind := some "Concat", parents := [(2, 0), (0, 0)] },
    { name := "before", kind := some "Concat", parents := [(0, 0), (2, 0)] }]
  members := [0, 1, 2, 3, 4] }

theorem linked_joinedNet : joinedNet.Linked joinedNet.members where
  inside := by decide
  once := by decide
  children := by decide
  sources := by decide
  agree := by decide

theorem fuse_keeps_operands_iff_joined : ∃ s', (fuse (rectifierFusion none)).outcome ⟨joinedNet, []⟩ = (.ok (), s') ∧
    (s'.net.node 3).parents = [(0, 0), (1, 0)] ∧
    (s'.net.node 3).parents ≠ (joinedNet.node 3).parents.map (Merge.follow (merges joinedNet s'.net)) ∧
    (s'.net.node 4).parents = (joinedNet.node 4).parents.map (Merge.follow (merges joinedNet s'.net)) := by
  obtain ⟨s', hrun, hparents, hmembers, hmerges⟩ : ∃ s',
      (fuse (rectifierFusion none)).outcome ⟨joinedNet, []⟩ = (.ok (), s') ∧
      (s'.net.node 3).parents = [(0, 0), (1, 0)] ∧ s'.net.members = [0, 1, 3, 4] ∧
      merges joinedNet s'.net = [⟨2, 1, 0⟩] := ⟨_, rfl, rfl, rfl, rfl⟩
  have hkept (v : Nat) (hv : v ∈ s'.net.members) :=
    fuse_keeps_operands_iff (.inr (.inr ⟨none, rfl⟩)) (by decide) linked_joinedNet hrun hv
  refine ⟨s', hrun, hparents, fun he => ?_, ?_⟩
  · have := (hkept 3 (by simp [hmembers])).2.2.mp he
    rw [hmerges] at this
    exact absurd this (by decide)
  · refine (hkept 4 (by simp [hmembers])).2.2.mpr ?_
    rw [hmerges]
    decide

end NetBridge.Prototxt
