import NetBridge.Prototxt.Layers
import NetBridge.Proofs.LayerFrames
import NetBridge.Proofs.ModelLayers
import NetBridge.Proofs.SpatialPads
import NetBridge.Source.CoreMl
import NetBridge.Source.Keras
import NetBridge.Source.MxNet
import NetBridge.Source.TensorFlow

/-!
# The sides of a window

A layer of a Core ML model takes four numbers from the pads attribute, at the top, left, bottom and right. Windows with
the pads of all axes are refused (`Rejected`); borders of two axes arrive as they are (`HandsOver`).
-/

namespace NetBridge

open List

/-! ## Attributes after an assignment -/

variable {rules : AttrRules} {l l' : Layer} {vs : List (String × Value)}

variable {name : String} {ns ps : List Int}

theorem Layer.get_eq_read {d : Value} (hd : Attr.unset.read d = .ok d) : l.get name d = (l.attr name).read d := by
  rw [get, attr, Table.findD]
  cases l.attrs.find? name with
  | none => exact hd.symm
  | some a => rfl

theorem Layer.attr_assignAll (name : String) (h : l.assignAll rules vs = (.ok (), l')) :
    ((vs.filter (·.1 == name)).map (·.2)).foldlM (Attr.assign rules) (l.attr name) = .ok (l'.attr name) := by
  induction vs generalizing l with
  | nil =>
    cases h
    rfl
  | cons w vs ih =>
    obtain ⟨m, v⟩ := w
    rw [assignAll, assign] at h
    cases ha : (l.attr m).assign rules v with
    | error f => simp [ha] at h
    | ok a =>
      rw [ha] at h
      have hrest := ih h
      rw [attr, Table.findD_insert] at hrest
      by_cases hm : m = name
      · subst hm
        simpa [ha, bind, Except.bind] using hrest
      · rw [← attr] at hrest
        simpa [hm] using hrest

theorem mapM_int64Of_eq_ok {ms : List Int} (h : (ns.map Value.int).mapM int64Of = .ok ms) : ms = ns := by
  have hsame (n m : Int) (hm : (int64Of ∘ Value.int) n = .ok m) : id m = id n := by
    simp only [Function.comp, int64Of, int64] at hm
    split at hm <;> cases hm
    rfl
  rw [mapM_map] at h
  simpa using map_of_mapM hsame h

theorem Layer.attr_of_assigned (hl : l.attr name = .unset) (hvs : (vs.filter (·.1 == name)).map (·.2) = [.ints ns])
    (hns : ns ≠ [])
    (h : l.assignAll rules vs = (.ok (), l')) : l'.attr name = .list { ints := ns } := by
  have hattr := attr_assignAll name h
  rw [hl, hvs] at hattr
  obtain ⟨n, ns, rfl⟩ := exists_cons_of_ne_nil hns
  obtain ⟨a, ha, ⟨⟩⟩ := bind_cases hattr
  have hmap : (((n :: ns).map Value.int).mapM int64Of).map Attr.unset.extendInts = .ok (l'.attr name) := ha
  obtain ⟨ms, hm, hms⟩ := except_map_eq_ok.mp hmap
  rw [← hms, mapM_int64Of_eq_ok hm]
  rfl

structure Layer.Pads (l : Layer) (ps : List Int) : Prop where
  listed : l.attr "pads" = .list { ints := ps }
  plain : l.attr "auto_pads" = .unset ∨ l.attr "auto_pads" = .text (Text.encodeUtf8 "VALID")

structure Layer.Bare (l : Layer) : Prop where
  pads : l.attr "pads" = .unset
  auto : l.attr "auto_pads" = .unset

structure SetsPads (vs : List (String × Value)) (ps : List Int) : Prop where
  pads : (vs.filter (·.1 == "pads")).map (·.2) = [.ints ps]
  auto : (vs.filter (·.1 == "auto_pads")).map (·.2) ∈ [[], [Value.text "VALID"]]

theorem Layer.Bare.assigned (hl : l.Bare)
    (hvs : SetsPads vs ps) (hps : ps ≠ []) (h : l.assignAll rules vs = (.ok (), l')) : l'.Pads ps := by
  have hauto := attr_assignAll "auto_pads" h
  rw [hl.auto] at hauto
  refine ⟨attr_of_assigned hl.pads hvs.pads hps h, ?_⟩
  have hwords := hvs.auto
  simp only [mem_cons, not_mem_nil, or_false] at hwords
  rcases hwords with he | he <;> rw [he] at hauto
  · exact .inl (Except.ok.inj hauto).symm
  · exact .inr (Except.ok.inj hauto).symm

/-! ## Pads of all axes -/

namespace Padding

variable {ps : List (Int × Int)}

theorem length_samePairs {xs ks ss : List Int} (h : samePairs xs ks ss = .ok ps) : ps.length = xs.length := by
  fun_induction samePairs xs ks ss generalizing ps with
  | case1 => cases h; rfl
  | case2 => cases h
  | case3 => cases h
  | case4 => cases h
  | case5 x xs s ss hs k ks ih =>
    obtain ⟨rest, hrest, ⟨⟩⟩ := bind_cases h
    simp [ih hrest]

variable {kernel : Value}

theorem length_samePairsOf {i : Nat} {xs ss : List Value}
    (h : samePairsOf kernel i xs ss = .ok ps) : ps.length = xs.length := by
  induction xs generalizing i ss ps with
  | nil =>
    cases h
    rfl
  | cons x xs ih =>
    cases ss with
    | nil => cases h
    | cons s ss =>
      obtain ⟨_, -, h⟩ := bind_cases h
      obtain ⟨n, -, h⟩ := bind_cases h
      split at h
      · cases h
      · obtain ⟨_, -, h⟩ := bind_cases h
        obtain ⟨_, -, h⟩ := bind_cases h
        obtain ⟨rest, hrest, ⟨⟩⟩ := bind_cases h
        simp [ih hrest]

theorem length_framed : (framed false ps).length = 2 * (ps.length + 2) := by
  simp [framed, flat]
  omega

theorem length_sameOf {shape strides : List Value} {pads : List Int} (hshape : 2 ≤ shape.length)
    (h : sameOf false shape kernel strides = .ok pads) : pads.length = 2 * shape.length := by
  have hinner {α : Type} (xs : List α) : (Value.inner xs).length = xs.length - 2 := by
    simp [Value.inner_eq]
    omega
  unfold sameOf at h
  split at h
  · rename_i xs _ _ hxs _ _
    obtain ⟨ps, hps, ⟨⟩⟩ := bind_cases h
    rw [length_framed, length_samePairs hps]
    have hlen : xs.length = shape.length := by
      simpa using congrArg length (map_of_mapM (p := fun _ => ()) (fun _ _ _ => rfl) hxs)
    simp [hinner]
    omega
  · obtain ⟨ps, hps, ⟨⟩⟩ := bind_cases h
    rw [length_framed, length_samePairsOf hps]
    simp [hinner]
    omega

end Padding

/-! ## Layers with pads -/

namespace Source

open Run

variable {α σ : Type} {b b' : Builder α σ} {k : Nat} {ps : List Int}

def PaddedBy (x : Nat → Build α σ Unit) (b : Builder α σ) (l : Layer) : Prop :=
  ∃ k b', k < b.layers.size ∧ (layerAt b k).Bare ∧ (x k).outcome b = (.ok (), b') ∧
    ∀ name ∈ ["pads", "auto_pads"], l.attr name = (layerAt b' k).attr name

def GivesPads (x : Nat → Build α σ Unit) (b : Builder α σ) (p : List Int → Prop) : Prop :=
  ∀ k b', k < b.layers.size → (layerAt b k).Bare → (x k).outcome b = (.ok (), b') →
    ∃ ps, (layerAt b' k).Pads ps ∧ ps ≠ [] ∧ p ps

theorem PaddedBy.pads {x : Nat → Build α σ Unit} {l : Layer} {p : List Int → Prop} (hx : GivesPads x b p)
    (h : PaddedBy x b l) : ∃ ps, l.Pads ps ∧ ps ≠ [] ∧ p ps := by
  obtain ⟨k, b', hk, hbare, hrun, hsame⟩ := h
  obtain ⟨ps, hps, hne, hp⟩ := hx k b' hk hbare hrun
  have hpads := hsame "pads" (by decide)
  have hauto := hsame "auto_pads" (by decide)
  exact ⟨ps, ⟨hpads.trans hps.listed, by rw [hauto]; exact hps.plain⟩, hne, hp⟩

theorem assign_pads {vs : List (String × Value)} (hvs : SetsPads vs ps) (hps : ps ≠ []) :
    GivesPads (assign · vs) b (· = ps) := by
  intro k b' hk hbare h
  obtain ⟨l, hl, rfl⟩ := assign_eq_ok h
  refine ⟨ps, ?_, hps, rfl⟩
  rw [layerAt_edit, if_pos ⟨rfl, hk⟩]
  exact hbare.assigned hvs hps hl

theorem addInts_pads (hps : ps ≠ []) :
    GivesPads (addInts · "pads" (ps.map .int)) b (· = ps) := by
  intro k b' hk hbare h
  obtain ⟨old, b₁, hold, h⟩ := step_cases h
  obtain ⟨_, b₂, ⟨⟩, hold⟩ := step_cases hold
  obtain ⟨l, b₂, ⟨⟩, hold⟩ := step_cases hold
  obtain ⟨rfl, rfl⟩ := pure_eq_ok.mp hold
  obtain ⟨a, ha, ⟨⟩⟩ := lift_cases h
  refine ⟨ps, ?_, hps, rfl⟩
  rw [← layerAt, layerAt_edit, if_pos ⟨rfl, hk⟩, attr_touch, hbare.pads] at ha
  cases hm : (ps.map Value.int).mapM int64Of with
  | error f =>
    rw [hm] at ha
    cases ha
  | ok ms =>
    rw [hm, mapM_int64Of_eq_ok hm] at ha
    cases ha
    rw [layerAt_edit, if_pos ⟨rfl, by simpa using hk⟩, layerAt_edit, if_pos ⟨rfl, hk⟩]
    refine ⟨?_, .inl ?_⟩
    · simp [Layer.attr, Attr.extendInts, Attr.items]
    · simpa [Layer.attr, Layer.touch] using hbare.auto

theorem CoreMl.valid_pads {b : Builder CoreMl.Item CoreMl.State} (h w : Int × Int) (isPool : Bool) :
    GivesPads (CoreMl.setPads · (.valid [h, w]) isPool) b (· = [h.1, w.1, h.2, w.2]) := by
  have hvs : SetsPads [("auto_pads", .text "VALID"), ("pads", .ints (CoreMl.flatBorders [h, w]))]
      [h.1, w.1, h.2, w.2] := ⟨rfl, by simp⟩
  simp only [CoreMl.setPads]
  exact assign_pads hvs (by simp)

theorem CoreMl.lastPixel_pads {b : Builder CoreMl.Item CoreMl.State} (y x : Int) :
    GivesPads (CoreMl.setPads · (.lastPixel [y, x]) true) b (· = [y, y, x, x]) := by
  simp only [CoreMl.setPads, if_true]
  exact assign_pads ⟨rfl, by simp⟩ (by simp)

theorem autoPad_pads (word : String) (hps : ps.length = 8) :
    GivesPads (assign · [("auto_pad", .text word), ("pads", .ints ps)]) b (·.length = 8) := by
  intro k b' hk hbare h
  obtain ⟨_, hpads, hne, rfl⟩ := assign_pads ⟨rfl, by simp⟩ (by rintro rfl; cases hps) k b' hk hbare h
  exact ⟨_, hpads, hne, hps⟩

theorem Keras.setPads_pads {b : Builder Keras.Node Keras.State} {u : Vertex Keras.Node} {shape : Value}
    {axes : List Value}
    (kernel strides : Value) (hshape : Keras.property u "input_shape" = .ok shape) (haxes : shape.elements = .ok axes)
    (hfour : axes.length = 4) : GivesPads (Keras.setPads u · kernel strides) b (·.length = 8) := by
  intro k b' hk hbare h
  replace h := (lift_bind_ok hshape rfl).symm.trans h
  replace h := (lift_bind_ok haxes rfl).symm.trans h
  obtain ⟨mode, -, h⟩ := lift_cases h
  split at h
  · exact autoPad_pads "VALID" (by simp [hfour]) k b' hk hbare h
  · obtain ⟨ss, -, h⟩ := lift_cases h
    obtain ⟨pads, hpads, h⟩ := lift_cases h
    exact autoPad_pads "SAME_LOWER" (by rw [Padding.length_sameOf (by omega) hpads, hfour]) k b' hk hbare h
  · cases h

instance (d : Graph.Direction) (m : String) (path : List Int) (mark : Bool) :
    Stays (fun b b' => b'.layers = b.layers) (follow d m path mark : Build α σ (Option (Vertex α))) := by
  refine ⟨fun b₀ b hb a b' h => ?_⟩
  obtain ⟨-, rfl⟩ := follow_eq_ok h
  exact hb

theorem TensorFlow.setPads_pads {b b₁ : Builder Layer σ} {u p : Vertex Layer} {axes : List Int} (kernel : Value)
    (hparent : (parent u.name [0]).outcome b = (.ok p, b₁))
    (haxes : TensorFlow.outputSizes p = .ok axes) (hfour : axes.length = 4) :
    GivesPads (TensorFlow.setPads u · kernel) b (·.length = 8) := by
  intro k b' hk hbare h
  have hlooks : Stays (fun b b' => b'.layers = b.layers) (parent u.name [0] : Build Layer σ _) := inferInstance
  have hlayers : b₁.layers = b.layers := hlooks.keeps b b rfl p b₁ hparent
  have hk₁ : k < b₁.layers.size := by rwa [hlayers]
  have hbare₁ : (layerAt b₁ k).Bare := by rwa [layerAt, hlayers]
  replace h := (bind_ok hparent rfl).symm.trans h
  replace h := (lift_bind_ok haxes rfl).symm.trans h
  obtain ⟨mode, -, h⟩ := lift_cases h
  split at h
  · exact autoPad_pads "VALID" (by simp [hfour]) k b' hk₁ hbare₁ h
  · obtain ⟨s, -, h⟩ := lift_cases h
    obtain ⟨ss, -, h⟩ := lift_cases h
    obtain ⟨pads, hpads, h⟩ := lift_cases h
    have hlength : pads.length = 8 := by simpa [hfour] using Padding.length_sameOf (by simp [hfour]) hpads
    exact autoPad_pads "SAME_LOWER" hlength k b' hk₁ hbare₁ h
  · cases h

theorem MxNet.addPads_pads {b : Builder MxNet.Node MxNet.State} {u : Vertex MxNet.Node} {pad : Value} {y x : Int}
    (zeros : Nat) (hpad : MxNet.setting u "pad" = .ok pad) (hgiven : MxNet.hasSetting u "pad" = true)
    (hsides : MxNet.wholesOf pad = .ok [y, x]) :
    GivesPads (MxNet.addPads u · zeros) b (· = [0, y, x, 0, 0, y, x, 0]) := by
  simp only [MxNet.addPads, hgiven]
  intro k b' hk hbare h
  replace h := (lift_bind_ok hpad rfl).symm.trans h
  replace h := (lift_bind_ok hsides rfl).symm.trans h
  have hsome : [0, y, x, 0, 0, y, x, 0] ≠ [] := nofun
  exact addInts_pads hsome k b' hk hbare h

end Source

theorem SetsPads.append {vs rest : List (String × Value)} (h : SetsPads vs ps)
    (hrest : ∀ w ∈ rest, w.1 ≠ "pads" ∧ w.1 ≠ "auto_pads") : SetsPads (vs ++ rest) ps := by
  have hpads : rest.filter (·.1 == "pads") = [] :=
    filter_eq_nil_iff.mpr fun w hw => by simpa using (hrest w hw).1
  have hauto : rest.filter (·.1 == "auto_pads") = [] :=
    filter_eq_nil_iff.mpr fun w hw => by simpa using (hrest w hw).2
  refine ⟨?_, ?_⟩
  · rw [filter_append, hpads, append_nil, h.pads]
  · rw [filter_append, hauto, append_nil]
    exact h.auto

namespace Prototxt

variable {n : Node}

theorem outputAttr_name {out : String × Value} (h : outputAttr n = .ok out) : out.1 = "_output_shapes" := by
  iterate 3 obtain ⟨_, -, h⟩ := bind_cases h
  cases h
  rfl

theorem windowAttrs_pads {input : Option Sizes} {attrs : List (String × Value)}
    (h : windowAttrs n input = .ok attrs) : ∃ ps, ps.length = 8 ∧ SetsPads attrs ps := by
  obtain ⟨w, -, h⟩ := bind_cases h
  split at h
  · iterate 3 obtain ⟨_, -, h⟩ := bind_cases h
    obtain ⟨out, hout, ⟨⟩⟩ := bind_cases h
    exact ⟨replicate 8 0, rfl, by simp [outputAttr_name hout], by simp [outputAttr_name hout]⟩
  · iterate 7 obtain ⟨_, -, h⟩ := bind_cases h
    have hend {kernel : List (String × Value)} {ps : List Int} (hkernel : ∀ w ∈ kernel, w.1 = "kernel_shape")
        (hps : ps.length = 8) (h : (do
          let out ← outputAttr n
          return kernel ++ [("pads", Value.ints ps), ("strides", Value.ints [1, w.strideH, w.strideW, 1]), out]) =
            .ok attrs) : ∃ ps, ps.length = 8 ∧ SetsPads attrs ps := by
      obtain ⟨out, hout, ⟨⟩⟩ := bind_cases h
      have hnone {name : String} (hname : name ≠ "kernel_shape") : kernel.filter (·.1 == name) = [] :=
        filter_eq_nil_iff.mpr fun x hx => by simp [hkernel x hx, hname.symm]
      exact ⟨ps, hps, by simp [hnone, outputAttr_name hout], by simp [hnone, outputAttr_name hout]⟩
    split at h
    · split at h
      · exact hend (by simp) rfl h
      · obtain ⟨_, -, h⟩ := bind_cases h
        exact hend (by simp) rfl h
    · split at h
      · exact hend (by simp) rfl h
      · obtain ⟨_, -, h⟩ := bind_cases h
        exact hend (by simp) rfl h

variable {op : String}

theorem create_pads {vs : List (String × Value)} {ps : List Int} {d : DraftLayer} (hvs : SetsPads vs ps)
    (hps : ps ≠ []) (h : DraftLayer.create op vs = .ok d) : d.layer.Pads ps := by
  unfold DraftLayer.create at h
  split at h
  · rename_i l hl
    cases h
    exact Layer.Bare.assigned ⟨rfl, rfl⟩ hvs hps hl
  · cases h

section
variable {g : Net} {i : Nat} {ls : List DraftLayer}

variable {transposed : Bool}

theorem convLayer_eq_ok (h : convLayer op transposed g i = .ok ls) :
    ∃ p attrs rest l, g.onlyParent i = .ok p ∧ windowAttrs (g.node i) (g.node p.1).sizes = .ok attrs ∧
      DraftLayer.create op (attrs ++ rest) = .ok l ∧ ls = [l] ∧
      ∀ x ∈ rest, x.1 ∈ ["kernel_shape", "use_bias", "dilations", "group"] := by
  obtain ⟨p, hp, h⟩ := bind_cases h
  obtain ⟨attrs, hattrs, h⟩ := bind_cases h
  iterate 4 obtain ⟨_, -, h⟩ := bind_cases h
  obtain ⟨l, hl, ⟨⟩⟩ := bind_cases h
  rw [append_assoc, append_assoc] at hl
  refine ⟨p, attrs, _, l, hp, hattrs, hl, rfl, fun x hx => ?_⟩
  simp only [mem_append, mem_cons, not_mem_nil, or_false] at hx
  rcases hx with (rfl | rfl) | hx | rfl
  · simp
  · simp
  · split at hx
    · split at hx
      · cases mem_singleton.mp hx
        simp
      · cases hx
    · cases hx
  · simp

theorem poolLayer_eq_ok (h : poolLayer g i = .ok ls) :
    ∃ p attrs method l, g.onlyParent i = .ok p ∧ windowAttrs (g.node i) (g.node p.1).sizes = .ok attrs ∧
      DraftLayer.create "Pool" (attrs ++ [("pooling_type", .text method)]) = .ok l ∧ ls = [l] := by
  obtain ⟨p, hp, h⟩ := bind_cases h
  obtain ⟨attrs, hattrs, h⟩ := bind_cases h
  obtain ⟨_, -, h⟩ := bind_cases h
  split at h
  case' isFalse => split at h
  case isFalse.isFalse => cases h
  all_goals
    obtain ⟨method, -, h⟩ := bind_cases h
    obtain ⟨l, hl, ⟨⟩⟩ := bind_cases h
    exact ⟨p, attrs, method, l, hp, hattrs, hl, rfl⟩

theorem window_pads
    (h : convLayer op transposed g i = .ok ls ∨ poolLayer g i = .ok ls) {d : DraftLayer} (hd : d ∈ ls) :
    ∃ ps, d.layer.Pads ps ∧ ps ≠ [] ∧ ps.length = 8 := by
  obtain ⟨op, attrs, rest, input, hattrs, hcreate, hrest⟩ : ∃ op attrs rest input,
      windowAttrs (g.node i) input = .ok attrs ∧ DraftLayer.create op (attrs ++ rest) = .ok d ∧
        ∀ x ∈ rest, x.1 ≠ "pads" ∧ x.1 ≠ "auto_pads" := by
    rcases h with h | h
    · obtain ⟨p, attrs, rest, l, -, hattrs, hl, rfl, hrest⟩ := convLayer_eq_ok h
      cases mem_singleton.mp hd
      refine ⟨_, _, _, _, hattrs, hl, fun x hx => ?_⟩
      have hx := hrest x hx
      constructor <;> (intro he; rw [he] at hx; exact absurd hx (by decide))
    · obtain ⟨p, attrs, method, l, -, hattrs, hl, rfl⟩ := poolLayer_eq_ok h
      cases mem_singleton.mp hd
      exact ⟨_, _, _, _, hattrs, hl, by simp⟩
  obtain ⟨ps, hps, hsets⟩ := windowAttrs_pads hattrs
  have hne : ps ≠ [] := by
    rintro rfl
    cases hps
  exact ⟨ps, create_pads (hsets.append hrest) hne hcreate, hne, hps⟩

end

end Prototxt

/-! ## Sides -/

namespace Target.CoreMl

open Code Run

variable {v : Vertex Layer} {ps : List Int}

def sideNames : List String := ["padding_top", "padding_left", "padding_bottom", "padding_right"]

def sidesOf (c : Call) : List (Option Value) := sideNames.map (List.lookup · c.named)

inductive Windowed (v : Vertex Layer) : Convert Unit → Prop
  | convolution : Windowed v (convolution v)
  | pooling (hlocal : v.item.get "global_pooling" (.bool false) = .ok (.bool false)) : Windowed v (pooling v)

structure HandsOver (v : Vertex Layer) (sides : List Int) : Prop where
  read : ∀ s, (padsOf v).outcome s = (.ok (some (sides.map .int)), s)
  handed : ∀ x, Windowed v x → ∀ st st', x.outcome st = (.ok (), st') →
    ∃ c, st'.calls = st.calls ++ [c] ∧ sidesOf c = sides.map (some <| .int ·)

structure Rejected (v : Vertex Layer) : Prop where
  read : ∀ s, (padsOf v).outcome s = (.error Fault.value, s)
  handed : ∀ x, Windowed v x → ∀ st st', x.outcome st ≠ (.ok (), st')

theorem padsOf_outcome (h : v.item.Pads ps) (hps : ps ≠ []) (s : Scope) :
    (padsOf v).outcome s = (if ps.length = 4 then .ok (some (ps.map .int)) else .error Fault.value, s) := by
  have hpads : v.item.get "pads" (.ints [0, 0, 0, 0]) = .ok (.list (ps.map .int)) := by
    rw [Layer.get_eq_read rfl, h.listed]
    simp [Attr.read, AttrList.values, hps]
  have hauto : v.item.get "auto_pads" = .ok .none ∨ v.item.get "auto_pads" = .ok (.text "VALID") := by
    rw [Layer.get_eq_read rfl]
    rcases h.plain with he | he <;> rw [he]
    · exact .inl rfl
    · have hdecode : Text.decodeUtf8 (Text.encodeUtf8 "VALID") = some "VALID" := by decide +kernel
      exact .inr (by simp [Attr.read, Attr.decode, hdecode])
  have hlisted : ((if (ps.map Value.int).length = 4 then return some (ps.map Value.int) else throw Fault.value :
      Emit (Option (List Value)))).outcome s =
        (if ps.length = 4 then .ok (some (ps.map .int)) else .error Fault.value, s) := by
    rw [length_map]
    split <;> rfl
  rw [← hlisted]
  unfold padsOf
  rcases hauto with he | he <;> rw [he, hpads] <;> rfl

theorem sides_among {front back : List (String × Value)} (pads : Option (List Value))
    (h : ∀ n ∈ sideNames, front.lookup n = none ∧ back.lookup n = none) :
    sideNames.map (lookup · (front ++ padArgs pads ++ back)) = sideNames.map (lookup · (padArgs pads)) := by
  refine map_congr_left fun n hn => ?_
  rw [lookup_append, lookup_append, (h n hn).1, (h n hn).2, Option.none_or, Option.or_none]

theorem Windowed.call {p : Option (List Value) → Prop} (hp : Triple (fun _ => True) (padsOf v) fun a _ => True ∧ p a)
    {x : Convert Unit} (hx : Windowed v x) {st st' : State} (h : x.outcome st = (.ok (), st')) :
    ∃ c pads, p pads ∧ st'.calls = st.calls ++ [c] ∧ sidesOf c = sideNames.map (lookup · (padArgs pads)) := by
  -- the rules look things up around the pads and put the pads among the arguments that they give by name
  suffices hstep : ∀ (name : String) {e : Emit (List (String × Value))},
      Triple (fun _ => True) e (fun named _ => ∃ pads, p pads ∧
        sideNames.map (lookup · named) = sideNames.map (lookup · (padArgs pads))) →
      x = (do CoreMl.call name (← inScope e)) → ∃ c pads, p pads ∧ st'.calls = st.calls ++ [c] ∧
        sidesOf c = sideNames.map (lookup · (padArgs pads)) by
    cases hx with
    | convolution =>
      refine hstep "add_convolution" ?_ rfl
      refine .skip fun hasBias => .skip fun _ => .skip fun filters => .skip fun w => .skip fun _ => .skip fun sizes =>
        .skip fun b => .skip fun strides => .skip fun dilations => .skip fun groups => ?_
      exact .bind_of hp fun pads hpads => .skip fun input => .pure fun _ _ =>
        ⟨pads, hpads, sides_among pads (by simp [sideNames])⟩
    | pooling hlocal =>
      refine hstep "add_pooling" ?_ rfl
      refine .skip fun input => .skip fun kind => ?_
      extract_lets rest
      have hrest (kind : String) : Triple (fun _ => True) (rest kind) (fun named _ => ∃ pads, p pads ∧
          sideNames.map (lookup · named) = sideNames.map (lookup · (padArgs pads))) := by
        refine .bind_of (p := (· = .bool false)) (.lift fun a ha s hs => ⟨hs, ?_⟩) fun isGlobal hglobal => ?_
        · exact Except.ok.inj (ha.symm.trans hlocal)
        · subst hglobal
          iterate 5 refine .skip fun _ => ?_
          exact .bind_of hp fun pads hpads => .pure fun _ _ =>
              ⟨pads, hpads, sides_among pads (by simp [sideNames])⟩
      split
      · exact .skip hrest
      · exact .skip hrest
      · exact .skip hrest
  intro name e he hx
  rw [hx] at h
  obtain ⟨named, st₁, hnamed, h⟩ := step_cases h
  obtain ⟨hrun, hcalls⟩ := inScope_eq_ok hnamed
  obtain ⟨pads, hpads, hsides⟩ := he _ trivial _ _ hrun
  cases h
  exact ⟨{ name := name, named := named }, pads, hpads, by rw [← hcalls], hsides⟩

theorem pads_handsOver (h : v.item.Pads ps) (hps : ps.length = 4) : HandsOver v ps := by
  have hread (s : Scope) : (padsOf v).outcome s = (.ok (some (ps.map .int)), s) := by
    rw [padsOf_outcome h (by rintro rfl; cases hps), if_pos hps]
  refine ⟨hread, fun x hx st st' hrun => ?_⟩
  obtain ⟨c, _, rfl, hcalls, hsides⟩ := hx.call
    (fun s _ a s' ha => ⟨trivial, by rw [hread] at ha; cases ha; rfl⟩) hrun
  refine ⟨c, hcalls, hsides.trans ?_⟩
  match ps, hps with
  | [top, left, bottom, right], _ => rfl

theorem pads_rejected (h : v.item.Pads ps) (hne : ps ≠ []) (hps : ps.length ≠ 4) : Rejected v := by
  have hread (s : Scope) : (padsOf v).outcome s = (.error Fault.value, s) := by
    rw [padsOf_outcome h hne, if_neg hps]
  refine ⟨hread, fun x hx st st' hrun => ?_⟩
  obtain ⟨_, _, hfalse, -⟩ := hx.call
    (fun s _ a s' ha => ⟨trivial, by rw [hread] at ha; cases ha⟩) hrun
  exact hfalse

section
open Source

/-- Two pairs of borders arrive as they are. Amounts for both sides of an axis arrive at the wrong sides unless they are
the same for both axes. The pads of four axes never arrive. -/
theorem window_sides (v : Vertex Layer) :
    (∀ (b : Builder Source.CoreMl.Item Source.CoreMl.State) h w isPool,
      PaddedBy (Source.CoreMl.setPads · (.valid [h, w]) isPool) b v.item → HandsOver v [h.1, w.1, h.2, w.2]) ∧
    (∀ (b : Builder Source.CoreMl.Item Source.CoreMl.State) y x,
      PaddedBy (Source.CoreMl.setPads · (.lastPixel [y, x]) true) b v.item → (HandsOver v [y, x, y, x] ↔ y = x)) ∧
    (∀ b u kernel strides shape axes, Keras.property u "input_shape" = .ok shape → shape.elements = .ok axes →
      axes.length = 4 → PaddedBy (Keras.setPads u · kernel strides) b v.item → Rejected v) ∧
    (∀ (σ : Type) (b b₁ : Builder Layer σ) u p kernel axes,
      (Source.parent u.name [0] : Build Layer σ _).outcome b = (.ok p, b₁) → TensorFlow.outputSizes p = .ok axes →
      axes.length = 4 → PaddedBy (TensorFlow.setPads u · kernel) b v.item → Rejected v) ∧
    (∀ b u pad y x zeros, MxNet.hasSetting u "pad" = true → MxNet.setting u "pad" = .ok pad →
      MxNet.wholesOf pad = .ok [y, x] → PaddedBy (MxNet.addPads u · zeros) b v.item → Rejected v) ∧
    ∀ op transposed g i ls d, Prototxt.convLayer op transposed g i = .ok ls ∨ Prototxt.poolLayer g i = .ok ls →
      d ∈ ls → v.item.attrs = d.layer.attrs → Rejected v := by
  have hfour : (∃ ps, v.item.Pads ps ∧ ps ≠ [] ∧ ps.length = 8) → Rejected v := by
    rintro ⟨ps, hps, hne, hlength⟩
    exact pads_rejected hps hne (by omega)
  refine ⟨fun b h w isPool hv => ?_, fun b y x hv => ?_, fun b u kernel strides shape axes hshape haxes hrank hv => ?_,
    fun σ b b₁ u p kernel axes hp haxes hrank hv => ?_, fun b u pad y x zeros hgiven hpad hsides hv => ?_,
    fun op transposed g i ls d hls hd hv => ?_⟩
  · obtain ⟨_, hps, -, rfl⟩ := hv.pads (CoreMl.valid_pads h w isPool)
    exact pads_handsOver hps rfl
  · obtain ⟨_, hps, -, rfl⟩ := hv.pads (CoreMl.lastPixel_pads y x)
    have hover := pads_handsOver hps rfl
    constructor
    · intro hsides
      have hread := congrArg Prod.fst ((hsides.read default).symm.trans (hover.read default))
      simp only [Except.ok.injEq, Option.some.injEq, map_cons, cons.injEq, Value.int.injEq] at hread
      exact hread.2.1.symm
    · rintro rfl
      exact hover
  · exact hfour (hv.pads (Keras.setPads_pads kernel strides hshape haxes hrank))
  · exact hfour (hv.pads (TensorFlow.setPads_pads kernel hp haxes hrank))
  · obtain ⟨_, hps, hne, rfl⟩ := hv.pads (MxNet.addPads_pads zeros hpad hgiven hsides)
    exact pads_rejected hps hne (by simp)
  · obtain ⟨ps, hps, hne, hlength⟩ := Prototxt.window_pads hls hd
    refine hfour ⟨ps, ⟨?_, ?_⟩, hne, hlength⟩
    · rw [Layer.attr, hv]
      exact hps.listed
    · rw [Layer.attr, hv]
      exact hps.plain

def poolWindow (pads : List Int) (auto : Attr) : Vertex Layer :=
  let window : Attr := .list { ints := [1, 2, 2, 1] }
  let attrs : List (String × Attr) := [("pooling_type", .text (Text.encodeUtf8 "MAX")), ("strides", window),
    ("kernel_shape", window), ("pads", .list { ints := pads }), ("auto_pads", auto)]
  { name := "pool", item := { name := "pool", op := "Pool", attrs := .ofList attrs }, sources := ["in"] }

def inputOnly : State :=
  { scope := { graph :=
    { network := {}, graph := { vertices := Table.ofList [("in", { name := "in", item := {} })] } } } }

theorem window_sides_borders : ∃ b, PaddedBy (Source.CoreMl.setPads · (.valid [(1, 2), (3, 4)]) true) b
      (poolWindow [1, 3, 2, 4] (.text (Text.encodeUtf8 "VALID"))).item ∧
    HandsOver (poolWindow [1, 3, 2, 4] (.text (Text.encodeUtf8 "VALID"))) [1, 3, 2, 4] ∧
    ∃ st, (pooling (poolWindow [1, 3, 2, 4] (.text (Text.encodeUtf8 "VALID")))).outcome inputOnly = (.ok (), st) := by
  have hpads : PaddedBy (Source.CoreMl.setPads · (.valid [(1, 2), (3, 4)]) true) { layers := #[{}], own := ∅ }
      (poolWindow [1, 3, 2, 4] (.text (Text.encodeUtf8 "VALID"))).item :=
    ⟨0, _, by decide, ⟨rfl, rfl⟩, rfl, by simp; exact ⟨rfl, rfl⟩⟩
  exact ⟨_, hpads, (window_sides _).1 _ (1, 2) (3, 4) true hpads, _, outcome_of_isSome (by decide +kernel)⟩

theorem last_pixel_sides_mixed : (∃ b, PaddedBy (Source.CoreMl.setPads · (.lastPixel [0, 1]) true) b
      (poolWindow [0, 0, 1, 1] .unset).item) ∧
    (((pooling (poolWindow [0, 0, 1, 1] .unset)).outcome inputOnly).2.calls.map sidesOf =
      [[0, 0, 1, 1].map (some <| .int ·)]) ∧
    ¬HandsOver (poolWindow [0, 0, 1, 1] .unset) [0, 1, 0, 1] ∧ Rejected (poolWindow (List.replicate 8 0) .unset) := by
  have hover : HandsOver (poolWindow [0, 0, 1, 1] .unset) [0, 0, 1, 1] := pads_handsOver ⟨rfl, .inl rfl⟩ rfl
  refine ⟨⟨{ layers := #[{}], own := ∅ }, 0, _, by decide, ⟨rfl, rfl⟩, rfl, by simp; exact ⟨rfl, rfl⟩⟩, ?_, ?_,
    pads_rejected ⟨rfl, .inl rfl⟩ (by simp) (by simp)⟩
  · obtain ⟨c, hcalls, hsides⟩ := hover.handed _ (.pooling rfl) inputOnly _ (outcome_of_isSome (by decide +kernel))
    rw [hcalls]
    exact congrArg (· :: []) hsides
  · intro hcrossed
    cases (hcrossed.read default).symm.trans (hover.read default)

end

end Target.CoreMl

end NetBridge
