import NetBridge.Proofs.NetFusion
import Mathlib.Logic.Relation

/-!
# Links under a fusion

While a fusion rewires a net, the nodes that are still there are linked to each other only, and each link stands for a
way in the old net (`Contracted`). One visit keeps that (`fuseNode_cases`), hence a whole fusion (`fuse_keeps_links`).
-/

namespace NetBridge.Prototxt

open Run

namespace Net

def Numbered (g : Net) : Prop :=
  ∀ v ∈ g.members, v < g.pool.size ∧ ∀ c ∈ (g.node v).children, c < g.pool.size

def Feeds (g : Net) (a b : Nat) : Prop := b ∈ g.members ∧ a ∈ g.sources b

def Acyclic (g : Net) : Prop := ∀ v, ¬ Relation.TransGen g.Feeds v v

end Net

/-! ## One visit -/

variable {g : Net} {i : Nat} {f : Fusion} {s : Session}

/-- A node that its parent no longer lists cannot be taken out. -/
theorem bypass_parted {p : Nat} {o : Int} (hin : ∀ c ∈ (g.node i).children, c < g.pool.size)
    (hp : p < g.pool.size) (hself : i ∉ (g.node i).children) (hparted : i ∉ (g.node p).children) :
    bypass g i p o = .error Fault.value := by
  have htest : ((((g.node i).children.foldl (redirectReader i p o) g).node p).children.contains i) = false := by
    simp [(redirected (i := i) (o := o) hin hp).children, hself, hparted]
  rw [bypass]
  simp only [htest]
  rfl

/-- A net from which some nodes have been merged away. A node that is gone is listed by none that remains, nor by
itself or by its parent, so it cannot be merged again. -/
structure Contracted (g : Net) (gone : List Nat) (h : Net) : Prop where
  members : h.members = g.members
  kinds : g.SameKinds h
  numbered : h.Numbered
  links : h.Mutual (remaining g gone)
  unlisted : ∀ d ∈ gone, ∀ v ∈ remaining g gone, d ∉ (h.node v).children
  parted : ∀ d ∈ gone, d ∉ (h.node d).children ∧ ∀ p ∈ h.sources d, p ∈ g.members ∧ d ∉ (h.node p).children
  ways : ∀ v ∈ remaining g gone, ∀ p ∈ h.sources v, Relation.TransGen g.Feeds p v

section
variable {g h h' : Net} {gone : List Nat} {i p : Nat} {o : Int}

theorem Contracted.start (hn : g.Numbered) (hm : g.Mutual g.members) : Contracted g [] g := by
  have hall : remaining g [] = g.members := by simp [remaining]
  refine ⟨rfl, fun _ => ⟨rfl, rfl⟩, hn, hall ▸ hm, by simp, by simp, fun v hv p hp => ?_⟩
  exact .single ⟨hall ▸ hv, hp⟩

theorem Contracted.bypass (hc : Contracted g gone h) (hi : i ∈ remaining g gone)
    (hparents : (h.node i).parents = [(p, o)])
    (hp : p ∈ remaining g gone) (honly : (h.node p).children = [i]) (hb : Bypassed h i p h') :
    Contracted g (gone ++ [i]) h' := by
  have hlive {v : Nat} : v ∈ remaining g (gone ++ [i]) ↔ v ∈ remaining g gone ∧ v ≠ i := by
    simp [mem_remaining, and_assoc]
  have hsources : h.sources i = [p] := by simp [Net.sources, hparents]
  have hsource {x : Nat} : x ∈ h.sources i ↔ x = p := by simp [hsources]
  have hagree {v w : Nat} (hv : v ∈ remaining g gone) (hw : w ∈ remaining g gone) := hc.links.agree v hv w hw
  -- only the parent lists the node
  have hlists {v : Nat} (hv : v ∈ remaining g gone) (hvi : i ∈ (h.node v).children) : v = p :=
    hsource.mp ((hagree hv hi).mp hvi)
  have hlinks := hc.links.without hsources honly (fun _ => hlive) hb hi
  refine ⟨hb.members.trans hc.members, hc.kinds.trans hb.kinds, ?_, hlinks, ?_, ?_, ?_⟩
  · intro v hv
    rw [hb.members] at hv
    rw [hb.size]
    refine ⟨(hc.numbered v hv).1, fun c hcv => ?_⟩
    rw [hb.children] at hcv
    split at hcv
    · exact (hc.numbered i (hc.members ▸ (mem_remaining.mp hi).1)).2 c hcv.1
    · exact (hc.numbered v hv).2 c hcv
  · intro d hd v hv hdv
    replace hv := (hlive.mp hv).1
    rw [hb.children] at hdv
    rcases List.mem_append.mp hd with hd | hd
    · split at hdv
      · exact hc.unlisted d hd i hi hdv.1
      · exact hc.unlisted d hd v hv hdv
    · obtain rfl := List.mem_singleton.mp hd
      split at hdv
      · exact hdv.2 rfl
      · rename_i hvp
        exact hvp (hlists hv hdv)
  · intro d hd
    rcases List.mem_append.mp hd with hd | hd
    · have hdp : d ≠ p := fun e => (mem_remaining.mp hp).2 (e ▸ hd)
      have hfar : d ∉ (h.node i).children := hc.unlisted d hd i hi
      obtain ⟨hself, hpar⟩ := hc.parted d hd
      rw [hb.children, if_neg hdp]
      refine ⟨hself, fun q hq => ?_⟩
      rw [hb.sources, if_neg hfar] at hq
      rw [hb.children]
      refine ⟨(hpar q hq).1, ?_⟩
      split
      · exact fun hdq => hfar hdq.1
      · exact (hpar q hq).2
    · obtain rfl := List.mem_singleton.mp hd
      have hq : ∀ q, q ∈ h'.sources d → q = p := by
        intro q hq
        rw [hb.sources] at hq
        split at hq
        · rcases hq with ⟨hq, -⟩ | hq
          · exact hsource.mp hq
          · exact hq
        · exact hsource.mp hq
      refine ⟨fun hself => ?_, fun q hqd => ?_⟩
      · rw [hb.children] at hself
        split at hself
        · exact hself.2 rfl
        · rename_i hdp
          exact hdp (hlists hi hself)
      · obtain rfl := hq q hqd
        rw [hb.children, if_pos rfl]
        exact ⟨(mem_remaining.mp hp).1, fun h => h.2 rfl⟩
  · intro v hv x hx
    obtain ⟨hv, hvi⟩ := hlive.mp hv
    rw [hb.sources] at hx
    split at hx
    · rename_i hread
      rcases hx with ⟨hx, -⟩ | rfl
      · exact hc.ways v hv x hx
      · -- the way from the parent leads through the node
        exact (hc.ways i hi x (hsource.mpr rfl)).trans (hc.ways v hv i ((hagree hi hv).mp hread))
    · exact hc.ways v hv x hx

theorem Contracted.same (hc : Contracted g gone h) (hs : h.SameLinks h') (hk : h.SameKinds h') :
    Contracted g gone h' := by
  obtain ⟨hmembers, hkinds, hnumbered, ⟨hclosed, hagree⟩, hunlisted, hparted, hways⟩ := hc
  refine ⟨hs.members.trans hmembers, hkinds.trans hk, ?_, ⟨?_, ?_⟩, ?_, ?_, ?_⟩
  all_goals
    simp only [Net.Numbered, hs.members, hs.size, hs.children, hs.sources]
    assumption

end

/-- A fusion whose own part of a merge changes neither links nor kinds. -/
structure Fusion.Mild (f : Fusion) : Prop where
  links : f.Spares
  kinds : ∀ (p i : Nat) (h : Net), h.SameKinds (f.merge p i h)

/-- **One visit.** It leaves a net from which the node is merged away or one that is as before. It fails on a node
that is gone already, or if the fusion cannot tell whether it applies. -/
theorem fuseNode_cases (hf : f.Mild) {gone : List Nat} (hc : Contracted g gone s.net) (hi : i ∈ g.members) :
    (∃ b s', (fuseNode f i).outcome s = (.ok b, s') ∧ Contracted g (if b then gone ++ [i] else gone) s'.net) ∨
      ∃ e, (fuseNode f i).outcome s = (.error e, s) ∧ (i ∈ gone ∨ ∃ p, f.applies s.net p i = .error e) := by
  have hstay : Contracted g (if false = true then gone ++ [i] else gone) s.net := by simpa using hc
  have hin := hc.numbered i (hc.members ▸ hi)
  rw [fuseNode_outcome]
  split
  · rename_i p o hparents
    split
    · exact .inl ⟨false, s, rfl, hstay⟩
    · rename_i hlength
      cases ha : f.applies s.net p i with
      | error e => exact .inr ⟨e, rfl, .inr ⟨p, ha⟩⟩
      | ok b =>
        cases b with
        | false => exact .inl ⟨false, s, rfl, hstay⟩
        | true =>
          by_cases hgone : i ∈ gone
          · -- the parent has dropped it at its first visit
            obtain ⟨hself, hpar⟩ := hc.parted i hgone
            obtain ⟨hp, hparted⟩ := hpar p (by simp [Net.sources, hparents])
            have hpin := (hc.numbered p (hc.members ▸ hp)).1
            rw [bypass_parted hin.2 hpin hself hparted]
            exact .inr ⟨_, rfl, .inl hgone⟩
          · have hlive : i ∈ remaining g gone := mem_remaining.mpr ⟨hi, hgone⟩
            obtain ⟨hp, honly⟩ := hc.links.only hlive hparents (by simpa using hlength)
            have hpin := (hc.numbered p (hc.members ▸ (mem_remaining.mp hp).1)).1
            obtain ⟨h', hb, hbypassed, -⟩ := bypass_only hin.2 hpin honly
            rw [hb]
            have hmerged := (hc.bypass hlive hparents hp honly hbypassed).same (hf.links p i h') (hf.kinds p i h')
            exact .inl ⟨true, _, rfl, by simpa using hmerged⟩
  · exact .inl ⟨false, s, rfl, hstay⟩

/-! ## Whole nets -/

theorem contracted_of_fused (hf : f.Mild) {t : Session} {fused : List Nat} (hn : s.net.Numbered)
    (hm : s.net.Mutual s.net.members) (hrun : (s.net.members.filterM (fuseNode f)).outcome s = (.ok fused, t)) :
    Contracted s.net fused t.net := by
  refine Triple.filterM (I := fun _ kept u => Contracted s.net kept u.net) ?_ s (.start hn hm) fused t hrun
  intro done i todo kept hl u hu b u' hstep
  rcases fuseNode_cases hf hu (show i ∈ s.net.members by rw [hl]; simp) with ⟨b', u'', hok, hc⟩ | ⟨e, herr, -⟩
  · rw [hok] at hstep
    cases hstep
    exact hc
  · rw [herr] at hstep
    cases hstep

def Fusion.Decides (f : Fusion) (g : Net) : Prop :=
  ∀ i ∈ g.members, ∀ h, g.SameKinds h → ∀ p, ∃ b, f.applies h p i = .ok b

theorem fuse_succeeds (hf : f.Mild) (hn : s.net.Numbered)
    (hm : s.net.Mutual s.net.members) (hnodup : s.net.members.Nodup) (hd : f.Decides s.net) :
    ∃ s', (fuse f).outcome s = (.ok (), s') := by
  have hloop : Succeeds (fun u : Session => Contracted s.net [] u.net ∧ ∀ d ∈ [], d ∈ ([] : List Nat))
      (s.net.members.filterM (fuseNode f)) fun kept u =>
        Contracted s.net kept u.net ∧ ∀ d ∈ kept, d ∈ s.net.members := by
    refine .filterM (I := fun done kept (u : Session) =>
      Contracted s.net kept u.net ∧ ∀ d ∈ kept, d ∈ done) ?_
    rintro done i todo kept hl u ⟨hu, hkept⟩
    -- a node is not visited twice, so it is not gone when its turn comes
    have hnew : i ∉ kept := fun hi => not_mem_done hnodup hl (hkept i hi)
    have hi : i ∈ s.net.members := by rw [hl]; simp
    rcases fuseNode_cases hf hu hi with ⟨b, u', hok, hc⟩ | ⟨e, -, hgone | ⟨p, happlies⟩⟩
    · refine ⟨b, u', hok, hc, fun d hd => ?_⟩
      cases b with
      | false => exact List.mem_append_left _ (hkept d hd)
      | true =>
        rcases List.mem_append.mp hd with hd | hd
        · exact List.mem_append_left _ (hkept d hd)
        · exact List.mem_append_right _ hd
    · exact absurd hgone hnew
    · obtain ⟨b, hb⟩ := hd i hi u.net hu.kinds p
      rw [happlies] at hb
      cases hb
  obtain ⟨fused, t, hrun, -⟩ := hloop s ⟨.start hn hm, nofun⟩
  exact ⟨_, fuse_eq_ok.mpr ⟨fused, t, hrun, rfl⟩⟩

theorem decides_scalingFusion (h : ∀ i ∈ g.members, (g.node i).kind = some "Scale" →
    ∃ l, (g.node i).setting = .ok l) : scalingFusion.Decides g := by
  intro i hi k hk p
  have hsetting : (k.node i).setting = (g.node i).setting := by
    simp only [Node.setting, Node.settings, (hk i).1, (hk i).2]
  simp only [scalingFusion]
  split
  · rename_i hkinds
    simp only [Bool.and_eq_true, decide_eq_true_eq, (hk i).1] at hkinds
    obtain ⟨l, hl⟩ := h i hi hkinds.2
    rw [hsetting, hl]
    exact ⟨_, rfl⟩
  · exact ⟨false, rfl⟩

/-- **Links under a fusion.** In a net whose nodes read only each other and whose links agree: the fusion succeeds if no
node is listed twice and every scaling has settings. Then the net keeps exactly the nodes that were not merged, none of
them reads a merged node or is read by one, their links agree, and no cycle has come up. -/
theorem fuse_keeps_links {f : Fusion} (hf : f = scalingFusion ∨ ∃ kinds, f = rectifierFusion kinds) (s : Session)
    (hn : s.net.Numbered) (hm : s.net.Mutual s.net.members) :
    (s.net.members.Nodup → (f = scalingFusion → ∀ i ∈ s.net.members, (s.net.node i).kind = some "Scale" →
        ∃ l, (s.net.node i).setting = .ok l) → ∃ s', (fuse f).outcome s = (.ok (), s')) ∧
      ∀ s', (fuse f).outcome s = (.ok (), s') →
        ∃ fused t, (s.net.members.filterM (fuseNode f)).outcome s = (.ok fused, t) ∧
          s'.net.members = s.net.members.filter (· ∉ fused) ∧
          (∀ v ∈ s'.net.members, (∀ p ∈ s'.net.sources v, p ∉ fused) ∧ ∀ c ∈ (s'.net.node v).children, c ∉ fused) ∧
          s'.net.Mutual s'.net.members ∧ (s.net.Acyclic → s'.net.Acyclic) := by
  have hmild : f.Mild := by
    rcases hf with rfl | ⟨kinds, rfl⟩
    · exact ⟨spares_scalingFusion, fun p _ h => .update h p (fun _ => rfl) fun _ => rfl⟩
    · exact ⟨spares_rectifierFusion kinds, fun p _ h => .update h p (fun _ => rfl) fun _ => rfl⟩
  refine ⟨fun hnodup hsettings => fuse_succeeds hmild hn hm hnodup ?_, ?_⟩
  · rcases hf with rfl | ⟨kinds, rfl⟩
    · exact decides_scalingFusion (hsettings rfl)
    · exact fun _ _ _ _ _ => ⟨_, rfl⟩
  · intro s' hrun
    obtain ⟨fused, t, hloop, rfl⟩ := fuse_eq_ok.mp hrun
    have hc := contracted_of_fused hmild hn hm hloop
    refine ⟨fused, t, hloop, rfl, fun v hv => ⟨fun p hp => ?_, fun c hcv hgone => ?_⟩,
      ⟨hc.links.closed, hc.links.agree⟩,
      fun hacyclic v hcycle => hacyclic v ?_⟩
    · exact (mem_remaining.mp (hc.links.closed v hv p hp)).2
    · exact hc.unlisted c hgone v hv hcv
    · exact hcycle.lift' id fun a b hab => hc.ways b hab.1 a hab.2

def stackedNet : Net := {
  pool := #[
    { name := "x", kind := some "Data", children := [1] },
    { name := "c", kind := some "Convolution", parents := [(0, 0)], children := [2] },
    { name := "r", kind := some "ReLU", parents := [(1, 0)], children := [3] },
    { name := "q", kind := some "ReLU", parents := [(2, 0)], children := [4, 5] },
    { name := "a", kind := some "Pooling", parents := [(3, 0)], children := [5] },
    { name := "b", kind := some "Eltwise", parents := [(3, 0), (4, 0)] }]
  members := [5, 4, 3, 2, 1, 0] }

theorem acyclic_stackedNet : stackedNet.Acyclic := by
  have hlt : ∀ b ∈ stackedNet.members, ∀ a ∈ stackedNet.sources b, a < b := by decide
  have hway : ∀ a b, Relation.TransGen stackedNet.Feeds a b → a < b := by
    intro a b h
    induction h with
    | single h => exact hlt _ h.1 _ h.2
    | tail _ h ih => exact Nat.lt_trans ih (hlt _ h.1 _ h.2)
  exact fun v h => Nat.lt_irrefl v (hway v v h)

theorem fuse_keeps_links_stacked : ∃ s', (fuse (rectifierFusion none)).outcome ⟨stackedNet, []⟩ = (.ok (), s') ∧
    s'.net.members = [5, 4, 1, 0] ∧ s'.net.Mutual s'.net.members ∧ s'.net.Acyclic := by
  have hkept := fuse_keeps_links (.inr ⟨none, rfl⟩) ⟨stackedNet, []⟩ (by unfold Net.Numbered; decide)
    ⟨by decide, by decide⟩
  have hscale : ∀ i ∈ stackedNet.members, (stackedNet.node i).kind ≠ some "Scale" := by decide
  obtain ⟨s', hrun⟩ := hkept.1 (by decide) fun _ i hi h => absurd h (hscale i hi)
  obtain ⟨fused, t, hloop, hmembers, -, hmutual, hacyclic⟩ := hkept.2 s' hrun
  refine ⟨s', hrun, ?_, hmutual, hacyclic acyclic_stackedNet⟩
  have hfused : fused = [3, 2] := by
    cases hloop
    rfl
  rw [hmembers, hfused]
  rfl

end NetBridge.Prototxt
