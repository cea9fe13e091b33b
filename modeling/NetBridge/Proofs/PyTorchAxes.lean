import NetBridge.Proofs.AxisNumbers
import NetBridge.Proofs.SpatialPads

/-!
# Axes of PyTorch calls

The pads of a pooling call are cut one axis short (`pool_tuples`). A mean over several axes is a chain of calls; its
axes are carried over by the rank of the result, which is that of the input only if axes are kept
(`reduceMean_exact_iff`).
-/

namespace NetBridge.Target.PyTorch

open Code Run List Axes

variable {v : Vertex Layer} {s s' : Scope}

theorem ints_outcome {name : String} {ns : List Int} (h : v.item.get name = .ok (.ints ns)) :
    (Code.ints v name).outcome s = (.ok ns, s) :=
  lift_bind_ok h (lift_ok (Value.toInts_ints ns))

/-! ## Pooling -/

def poolCall (target name x : String) (kernel stride padding : List Int) (ceiling : Bool) : Line :=
  .assign 2 target ["F.", name, "(", .use x, ", kernel_size=", intTuple kernel, ", stride=", intTuple stride,
    ", padding=", intTuple padding, ", ceil_mode=", boolText ceiling, ")"]

theorem pool_eq_ok {kernel strides pads : List Int} {lines : List Line}
    (hglobal : (v.item.attr "global_pooling").flagValue = false)
    (hkernel : v.item.get "kernel_shape" = .ok (.ints kernel)) (hstrides : v.item.get "strides" = .ok (.ints strides))
    (hpads : v.item.get "pads" = .ok (.ints pads)) (h : (pool v).outcome s = (.ok lines, s')) :
    ∃ name x, lines = [poolCall v.variableName name x (Value.inner kernel) (Value.inner strides)
      (Value.slice pads (some 1) (some (strides.length - 2))) (Padding.isCeiling pads)] := by
  replace h := (lift_bind_ok hstrides rfl).symm.trans h
  obtain ⟨n, hn, h⟩ := lift_cases h
  obtain rfl : strides.length = n := by simpa [Value.ints, Value.length, Value.elements, Except.map] using hn
  obtain ⟨_, -, h⟩ := lift_cases h
  extract_lets call at h
  obtain ⟨name, t, h⟩ : ∃ name t, (call name).outcome t = (.ok lines, s') := by
    split_ifs at h
    all_goals
      obtain ⟨name, t, -, h⟩ := step_cases h
      exact ⟨name, t, h⟩
  simp only [call, hglobal] at h
  obtain ⟨_, -, h⟩ := lift_cases h
  obtain ⟨_, -, h⟩ := lift_cases h
  obtain ⟨_, u, -, h⟩ := step_cases h
  rw [bind_ok (ints_outcome hkernel) rfl, bind_ok (ints_outcome hstrides) rfl, bind_ok (ints_outcome hpads) rfl] at h
  obtain ⟨x, _, -, h⟩ := step_cases h
  exact ⟨name, x, (pure_eq_ok.mp h).1.symm⟩

theorem getElem?_inner {xs : List Int} {d : Nat} (h : xs.length = d + 2) :
    (Value.inner xs).length = d ∧ ∀ i < d, (Value.inner xs)[i]? = xs[i + 1]? := by
  rw [Value.inner_eq]
  refine ⟨by simp [h], fun i hi => ?_⟩
  rw [getElem?_drop, getElem?_take_of_lt (by omega), Nat.add_comm]

/-- The kernel and the strides of all `d` spatial axes are handed over, but the pads of all except the last. -/
theorem pool_tuples {d : Nat} (hd : 1 ≤ d) {kernel strides pads : List Int} (hk : kernel.length = d + 2)
    (hs : strides.length = d + 2) (hp : pads.length = 2 * (d + 2)) {v : Vertex Layer}
    (hglobal : (v.item.attr "global_pooling").flagValue = false)
    (hkernel : v.item.get "kernel_shape" = .ok (.ints kernel)) (hstrides : v.item.get "strides" = .ok (.ints strides))
    (hpads : v.item.get "pads" = .ok (.ints pads)) {s s' : Scope} {lines : List Line}
    (h : (pool v).outcome s = (.ok lines, s')) :
    ∃ name x size stride padding ceiling, lines = [poolCall v.variableName name x size stride padding ceiling] ∧
      size.length = d ∧ stride.length = d ∧ padding.length = d - 1 ∧
      (∀ i < d, size[i]? = kernel[i + 1]? ∧ stride[i]? = strides[i + 1]?) ∧
      ∀ i < d - 1, padding[i]? = pads[i + 1]? := by
  obtain ⟨name, x, rfl⟩ := pool_eq_ok hglobal hkernel hstrides hpads h
  obtain ⟨hklen, hkat⟩ := getElem?_inner hk
  obtain ⟨hslen, hsat⟩ := getElem?_inner hs
  have hcut : Value.slice pads (some 1) (some (strides.length - 2)) = (pads.take d).drop 1 :=
    Value.slice_eq (by unfold Value.bound; grind) (by unfold Value.bound; grind)
  refine ⟨name, x, _, _, _, _, rfl, hklen, hslen, ?_, fun i hi => ⟨hkat i hi, hsat i hi⟩, fun i hi => ?_⟩
  · rw [hcut]
    simp
    omega
  · rw [hcut, getElem?_drop, getElem?_take_of_lt (by omega), Nat.add_comm]

def layerOver (attrs : List (String × Attr)) : Vertex Layer :=
  { name := "c", item := { name := "c", attrs := .ofList attrs }, sources := ["x"] }

def unevenPool : Vertex Layer :=
  let window : Attr := .list { ints := [1, 3, 3, 1] }
  layerOver [("pooling_type", .text (Text.encodeUtf8 "MAX")), ("kernel_shape", window), ("strides", window),
    ("pads", .list { ints := [0, 1, 2, 0, 0, 1, 2, 0] })]

theorem pool_tuples_uneven : ∃ name x size stride padding ceiling s', (pool unevenPool).outcome (paddedScope []) =
      (.ok [poolCall "c" name x size stride padding ceiling], s') ∧
    size.length = 2 ∧ stride.length = 2 ∧ padding.length = 1 ∧ padding[0]? = some 1 := by
  have h : (pool unevenPool).outcome (paddedScope []) = (.ok (resultD _ []), _) :=
    Prod.ext (eq_resultD (by decide +kernel)) rfl
  obtain ⟨name, x, size, stride, padding, ceiling, hlines, hsize, hstride, hpadding, -, hat⟩ :=
    pool_tuples (by decide) rfl rfl rfl rfl rfl rfl rfl h
  exact ⟨name, x, size, stride, padding, ceiling, _, hlines ▸ h, hsize, hstride, hpadding, hat 0 (by decide)⟩

/-! ## Means -/

/-- The axes of an array that a chain of means takes away, each mean over one axis of what the one before it left. -/
def reduced (keep : Bool) : List Nat → List Nat → Option (List Nat)
  | _, [] => some []
  | held, a :: as => do
    let k ← held[a]?
    return k :: (← reduced keep (if keep then held else held.eraseIdx a) as)

variable {keep : Bool}

theorem reduced_of_falling {held as : List Nat} {n : Nat} (hheld : ∀ i < n, held[i]? = some i) (hlt : ∀ a ∈ as, a < n)
    (has : as.Pairwise (· > ·)) : reduced keep held as = some as := by
  induction as generalizing held n with
  | nil => rfl
  | cons a as ih =>
    obtain ⟨hfall, has⟩ := pairwise_cons.mp has
    -- the axes in front of the one taken away keep their numbers
    have hrest : reduced keep (if keep then held else held.eraseIdx a) as = some as := by
      refine ih (fun i hi => ?_) hfall has
      have hi' : held[i]? = some i := hheld i (Nat.lt_trans hi (hlt a mem_cons_self))
      split
      · exact hi'
      · rw [getElem?_eraseIdx_of_lt hi, hi']
    simp [reduced, hheld a (hlt a mem_cons_self), hrest]

theorem reduced_eq_some_iff {n : Nat} {as ks : List Nat} (has : as.Pairwise (· > ·)) :
    reduced keep (range n) as = some ks ↔ (∀ a ∈ as, a < n) ∧ ks = as := by
  by_cases hlt : ∀ a ∈ as, a < n
  · rw [reduced_of_falling (fun i hi => getElem?_range hi) hlt has]
    rw [Option.some_inj, and_iff_right hlt, eq_comm]
  · -- the largest axis comes first, and there is none of its number
    have hnone : reduced keep (range n) as = none := by
      cases as with
      | nil => simp at hlt
      | cons a as =>
        have ha : n ≤ a := by
          simp only [mem_cons, forall_eq_or_imp, not_and, not_forall] at hlt
          by_contra hlow
          obtain ⟨b, hb, hbn⟩ := hlt (by omega)
          have := rel_of_pairwise_cons has hb
          omega
        simp [reduced, getElem?_eq_none (show (range n).length ≤ a by simpa using ha)]
    simp [hnone, hlt]

theorem secondPlace_injective (m : Nat) : Function.Injective (secondPlace m) := by
  intro a b h
  unfold secondPlace at h
  split_ifs at h <;> omega

/-- The axes of the chain for a layer with an output of rank `m`. -/
def meanAxes (m : Nat) (axes : List Nat) : List Nat := (axes.map (Axes.secondPlace m)).mergeSort fun a b => b ≤ a

theorem meanAxes_falling {m : Nat} {axes : List Nat} (h : axes.Nodup) : (meanAxes m axes).Pairwise (· > ·) := by
  have hsorted : (meanAxes m axes).Pairwise fun a b => decide (b ≤ a) = true :=
    pairwise_mergeSort (by simp; omega) (by simp; omega) _
  have hnodup : (meanAxes m axes).Nodup :=
    (mergeSort_perm _ _).nodup_iff.mpr (Pairwise.map _ (fun _ _ hab => (secondPlace_injective m).ne hab) h)
  refine hsorted.imp₂ (fun a b hle hne => ?_) hnodup
  have := of_decide_eq_true hle
  omega

section
variable {n : Nat} {axes : List Nat} {out : List Int} {x : String}
    (haxes : v.item.get "axes" = .ok (.ints (axes.map (↑))))
  (hkeep : v.item.get "keepdims" = .ok (.bool keep))
  (hout : v.item.get "_output_shapes" = .ok (.list [.shape out])) (hx : (input v).outcome s = (.ok x, s))
include haxes hkeep hout hx

theorem reduceMean_outcome : (reduceMean v).outcome s =
    (.ok (means v.variableName (boolText keep) x ((meanAxes out.length axes).map (↑))), s) := by
  have hplaces : axes.map (firstAxis out.length ∘ Nat.cast) = (axes.map (secondPlace out.length)).map (↑) := by
    simp [firstAxis_front]
  have hsort : ((axes.map (secondPlace out.length)).map (Nat.cast : Nat → Int)).mergeSort (fun a b => b ≤ a) =
      (meanAxes out.length axes).map (↑) := (map_mergeSort (by simp)).symm
  refine bind_ok (ints_outcome haxes) ?_
  rw [← hsort, ← hplaces]
  cases axes with
  | nil =>
    refine bind_ok (a := []) rfl (bind_ok hx ?_)
    simp only [map_nil, mergeSort_nil]
    rfl
  | cons a as =>
    refine bind_ok (a := out) (lift_bind_ok hout rfl) (bind_ok rfl (bind_ok hx ?_))
    refine bind_ok (a := boolText keep) (lift_bind_ok hkeep rfl) ?_
    rw [map_map]
    rfl

/-- A chain of means over `axes` takes away the axes it should if the axes are kept, or if neither the channels nor
the last axis of the result, unless that is the batch, are among them. -/
theorem reduceMean_exact_iff (hn : 3 ≤ n) (hnodup : axes.Nodup) (hlt : ∀ a ∈ axes, a < n)
    (hrank : out.length = if keep then n else n - axes.length) :
    ∃ as : List Nat, (reduceMean v).outcome s = (.ok (means v.variableName (boolText keep) x (as.map (↑))), s) ∧
      ((∃ ks, reduced keep (List.range n) as = some ks ∧ ks.Perm (axes.map (Axes.secondPlace n))) ↔
        keep = true ∨ n - 1 ∉ axes ∧ (n - axes.length ≤ 1 ∨ n - axes.length - 1 ∉ axes)) := by
  refine ⟨_, reduceMean_outcome haxes hkeep hout hx, ?_⟩
  have hperm : (meanAxes out.length axes).Perm (axes.map (secondPlace out.length)) := mergeSort_perm _ _
  have hexact : (∃ ks, reduced keep (range n) (meanAxes out.length axes) = some ks ∧
        ks.Perm (axes.map (secondPlace n))) ↔ (∀ a ∈ axes, secondPlace out.length a < n) ∧
      (axes.map (secondPlace out.length)).Perm (axes.map (secondPlace n)) := by
    simp [reduced_eq_some_iff (meanAxes_falling hnodup), hperm.mem_iff, ← hperm.congr_left]
  rw [hexact, hrank]
  constructor
  · rintro ⟨hin, htarget⟩
    cases keep with
    | true => exact .inl rfl
    | false =>
      have hlast : n - 1 ∉ axes := fun hmem => by
        have hpos := length_pos_of_mem hmem
        have := hin _ hmem
        rw [if_neg (by simp), secondPlace, if_neg (by omega), if_neg (by omega)] at this
        omega
      refine .inr ⟨hlast, or_iff_not_imp_left.mpr fun hm hmem => hlast ?_⟩
      -- the place of the channels is taken by another axis
      have hone : 1 ∈ axes.map (secondPlace n) := by
        rw [← htarget.mem_iff]
        refine mem_map.mpr ⟨_, hmem, ?_⟩
        rw [if_neg (by simp), secondPlace, if_neg (by omega), if_pos rfl]
      obtain ⟨a, ha, hplace⟩ := mem_map.mp hone
      unfold secondPlace at hplace
      split_ifs at hplace with h0 h1
      · exact h1 ▸ ha
      · omega
  · intro h
    have hsame : ∀ a ∈ axes, secondPlace (if keep then n else n - axes.length) a = secondPlace n a := by
      intro a ha
      cases keep with
      | true => rfl
      | false =>
        obtain ⟨hlast, hm⟩ := h.resolve_left (by simp)
        have h1 : a ≠ n - 1 := fun he => hlast (he ▸ ha)
        have h2 : n - axes.length ≤ 1 ∨ a ≠ n - axes.length - 1 := hm.imp_right fun hm he => hm (he ▸ ha)
        simp only [secondPlace]
        grind
    refine ⟨fun a ha => ?_, .of_eq (map_congr_left hsame)⟩
    rw [hsame a ha]
    exact secondPlace_lt (by omega) (hlt a ha)

end

def meanLayer : Vertex Layer :=
  layerOver [("axes", .list { ints := [1, 2] }), ("keepdims", .flag false),
  ("_output_shapes", .list { shapes := [[-1, 3]] })]

theorem reduceMean_exact_iff_image : ∃ as : List Nat, (reduceMean meanLayer).outcome (paddedScope []) =
      (.ok (means "c" "False" "x" (as.map (↑))), paddedScope []) ∧
    ¬∃ ks, reduced false (List.range 4) as = some ks ∧ ks.Perm [2, 3] := by
  have haxes : meanLayer.item.get "axes" = .ok (.ints ([1, 2].map Nat.cast)) := rfl
  have hout : meanLayer.item.get "_output_shapes" = .ok (.list [.shape [-1, 3]]) := rfl
  obtain ⟨as, hlines, hexact⟩ := reduceMean_exact_iff (n := 4) (s := paddedScope []) haxes rfl hout rfl (by decide)
    (by decide) (by decide) rfl
  exact ⟨as, hlines, fun h => absurd (hexact.mp h) (by decide)⟩

end NetBridge.Target.PyTorch
