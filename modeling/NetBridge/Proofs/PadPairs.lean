import NetBridge.Proofs.PaddedRules
import NetBridge.Proofs.SamePads

/-!
# Pads in pairs

Pads are listed in pairs, start and end of an axis together, or flat, all starts before all ends. Turning one listing
into the other and back loses nothing, so a layer that pads with zeros is written with the pairs that it was read with.
-/

namespace NetBridge

open List Value Padding

namespace Padding

variable {α : Type}

theorem unpaired_sides (ps : List (α × α)) :
    unpaired (ps.flatMap fun p => [p.1, p.2]) = .ok (ps.map (·.1), ps.map (·.2)) := by
  induction ps with
  | nil => rfl
  | cons p ps ih =>
    rw [flatMap_cons, cons_append, cons_append, nil_append, unpaired, ih]
    rfl

theorem unpaired_odd {l : List α} (h : l.length % 2 = 1) : unpaired l = .error Fault.condition := by
  fun_induction unpaired l with
  | case1 => cases h
  | case2 => rfl
  | case3 a b r ih =>
    have hrest : r.length % 2 = 1 := by
      simp only [length_cons] at h
      omega
    rw [ih hrest]
    rfl

end Padding

namespace Value

/-- A list of pairs of numbers. -/
def pairList (ps : List (Int × Int)) : Value := .list (ps.map fun p => .list [.int p.1, .int p.2])

theorem unify_ints (ns : List Int) : unify (ns.map .int) = ns.map .int := by
  cases ns with
  | nil => rfl
  | cons n ns => simp [unify, toInt]

theorem flatten_list {vs : List Value} {d : List Nat} {r : Value → List Value}
    (hr : ∀ v ∈ vs, unnest v = .ok (d, r v)) : (list vs).flatten = .ok (unify (vs.flatMap r)) := by
  have hall : unnestAll vs = .ok (vs.map fun v => (d, r v)) := by
    induction vs with
    | nil => rw [unnestAll]; rfl
    | cons v vs ih =>
      rw [unnestAll, hr v (.head _), ih fun w hw => hr w (.tail _ hw)]
      rfl
  rw [flatten, unnest, ok_bind hall]
  cases vs with
  | nil => rfl
  | cons v vs => simp [require, flatMap_map, bind, Except.bind, pure, Except.pure]

theorem flatten_ints (ns : List Int) : (ints ns).flatten = .ok (ns.map .int) := by
  have hflat : (ns.map int).flatMap ([·]) = ns.map .int := by simp
  rw [← unify_ints, ← hflat]
  exact flatten_list (forall_mem_map.mpr fun n _ => by rw [unnest] <;> nofun)

theorem flatten_pairList (ps : List (Int × Int)) :
    (pairList ps).flatten = .ok ((ps.flatMap fun p => [p.1, p.2]).map .int) := by
  have hflat : (ps.map fun p => list [.int p.1, .int p.2]).flatMap elems =
      (ps.flatMap fun p => [p.1, p.2]).map .int := by
    simp [flatMap_map, map_flatMap, elems]
  rw [← unify_ints, ← hflat]
  refine flatten_list (d := [2]) (forall_mem_map.mpr fun p _ => ?_)
  simp [unnest, unnestAll, elems, require, bind, Except.bind, pure, Except.pure]

end Value

variable {ps : List (Int × Int)} {q : List Int}

namespace Padding

theorem unpair_sides (ps : List (Int × Int)) :
    unpair ((ps.flatMap fun p => [p.1, p.2]).map int) = .ok ((flat ps).map .int) := by
  have hsides : (ps.flatMap fun p => [p.1, p.2]).map int =
      (ps.map (Prod.map int int)).flatMap fun p => [p.1, p.2] := by
    simp [flatMap_map, map_flatMap]
  rw [unpair, hsides, ok_bind (unpaired_sides _)]
  simp only [flat, map_append, map_map]
  rfl

theorem flat_halves (h : q.length % 2 = 0) : flat ((q.take (q.length / 2)).zip (q.drop (q.length / 2))) = q := by
  rw [flat, map_fst_zip (by simp; omega), map_snd_zip (by simp; omega), take_append_drop]

theorem halves_flat (ps : List (Int × Int)) :
    ((flat ps).take ((flat ps).length / 2)).zip ((flat ps).drop ((flat ps).length / 2)) = ps := by
  have hlength : (flat ps).length / 2 = (ps.map (·.1)).length := by
    simp [flat]
    omega
  rw [hlength, flat, take_left, drop_left, zip_map']
  exact map_id ps

theorem pairs_flat (ps : List (Int × Int)) : pairs (flat ps) = .ok ps := by
  rw [pairs, if_pos (by simp [flat]; omega), halves_flat]

theorem fromPairs_pairList (ps : List (Int × Int)) : fromPairs (.pairList ps) = .ok (.ints (flat ps)) := by
  rw [fromPairs, ok_bind (flatten_pairList ps), ok_bind (unpair_sides ps)]
  rfl

theorem toPairs_ints (h : q.length % 2 = 0) :
    toPairs (.ints q) = .ok (.pairList ((q.take (q.length / 2)).zip (q.drop (q.length / 2)))) := by
  rw [toPairs, ok_bind (flatten_ints q)]
  simp [require, h, pairList, ← map_take, ← map_drop, zip_map, bind, Except.bind, pure,
    Except.pure]

theorem pads_odd (h : q.length % 2 = 1) :
    fromPairs (.ints q) = .error Fault.condition ∧ toPairs (.ints q) = .error Fault.value := by
  constructor
  · rw [fromPairs, ok_bind (flatten_ints q), unpair, unpaired_odd (by simpa using h)]
    rfl
  · rw [toPairs, ok_bind (flatten_ints q)]
    simp [require, h]

end Padding

namespace Source

open Run

namespace Keras

variable {v : Vertex Node} {b b' : Builder Node State}

theorem alike_ints (ns : List Int) : alike (ns.map .int) = ns.map .int := by
  simp [alike, toInt]

/-- The pads of the new layer, with none for the batch and the channels. -/
theorem zeroPadding_pads {padding : Value} {vs : List Value}
    (hpadding : property v "padding" = .ok padding) (hvs : padding.elements = .ok vs)
    (hps : vs.mapM (·.elements) = .ok (ps.map fun p => [.int p.1, .int p.2]))
    (h : (zeroPadding v).outcome b = (.ok (), b')) :
    (layerAt b' b.layers.size).attr "pads" = .list { ints := flat ([(0, 0)] ++ ps ++ [(0, 0)]) } := by
  obtain ⟨k, b₁, hcarry, h⟩ := step_cases h
  obtain ⟨rfl, hfresh⟩ := begins_carry _ b rfl k b₁ hcarry
  replace h := (lift_bind_ok hpadding rfl).symm.trans h
  replace h := (lift_bind_ok hvs rfl).symm.trans h
  replace h := (bind_ok (mapM_lift_eq_ok b₁ hps) rfl).symm.trans h
  have hints : [int 0, .int 0] ++ (ps.map fun p => [int p.1, .int p.2]).flatten ++ [.int 0, .int 0] =
      (([(0, 0)] ++ ps ++ [(0, 0)]).flatMap fun p : Int × Int => [p.1, p.2]).map .int := by
    simp [← flatMap_def, map_flatMap]
  rw [hints, alike_ints] at h
  replace h := (lift_bind_ok (unpair_sides _) rfl).symm.trans h
  obtain ⟨_, hpads, -, rfl⟩ := assign_pads ⟨rfl, by simp⟩ (by simp [flat]) _ _ hfresh.inside hfresh.bare h
  exact hpads.listed

end Keras

end Source

theorem Target.Keras.spatialPads_flat {u : Vertex Layer} {s : Code.Scope}
    (h : u.item.attr "pads" = .list { ints := flat ([(0, 0)] ++ ps ++ [(0, 0)]) }) :
    (spatialPads u).outcome s = (.ok ps, s) := by
  have hlength : (flat ([(0, 0)] ++ ps ++ [(0, 0)])).length = 2 * (ps.length + 2) := by
    simp [flat]
    omega
  have hpads : u.item.get "pads" = .ok (.list ((flat ([(0, 0)] ++ ps ++ [(0, 0)])).map .int)) := by
    rw [Layer.get_eq_read rfl, h]
    simp [Attr.read, AttrList.values, flat]
  rw [spatialPads_outcome hlength hpads, ← inner_rows,
    ← Except.ok.inj ((pairs_flat _).symm.trans (pairs_eq hlength)), inner_eq]
  simp

/-- Both ways between the listings, and through a layer that pads with zeros. -/
theorem pads_round_trip :
    (∀ ps : List (Int × Int), (Padding.fromPairs (.pairList ps) >>= Padding.toPairs) = .ok (.pairList ps)) ∧
    (∀ q : List Int, q.length % 2 = 0 → (Padding.toPairs (.ints q) >>= Padding.fromPairs) = .ok (.ints q)) ∧
    (∀ q : List Int, q.length % 2 = 1 → Padding.fromPairs (.ints q) = .error Fault.condition ∧
      Padding.toPairs (.ints q) = .error Fault.value) ∧
    ∀ (v : Vertex Source.Keras.Node) (b b' : Source.Builder Source.Keras.Node Source.Keras.State) (padding : Value)
      (vs : List Value) (ps : List (Int × Int)), Source.Keras.property v "padding" = .ok padding →
      padding.elements = .ok vs → vs.mapM (·.elements) = .ok (ps.map fun p => [.int p.1, .int p.2]) →
      (Source.Keras.zeroPadding v).outcome b = (.ok (), b') → ∀ (u : Vertex Layer) (s : Code.Scope),
      u.item = Source.layerAt b' b.layers.size → (Target.Keras.spatialPads u).outcome s = (.ok ps, s) := by
  refine ⟨fun ps => ?_, fun q hq => ?_, fun q => Padding.pads_odd, fun v b b' p vs ps hp hvs hps h u s hu => ?_⟩
  · rw [ok_bind (Padding.fromPairs_pairList ps), Padding.toPairs_ints (by simp [flat]; omega), halves_flat]
  · rw [ok_bind (Padding.toPairs_ints hq), Padding.fromPairs_pairList, flat_halves hq]
  · exact Target.Keras.spatialPads_flat (hu ▸ Source.Keras.zeroPadding_pads hp hvs hps h)

def borderedImage : Vertex Source.Keras.Node where
  name := "z"
  item := { kind := "ZeroPadding2D", name := "z", properties := .ofList [
    ("output_shape", .tuple [.none, .int 6, .int 9, .int 1]),
    ("padding", .tuple [.tuple [.int 1, .int 2], .tuple [.int 3, .int 4]])] }

theorem pads_round_trip_bordered :
    (Padding.toPairs (.ints [1, 2, 3, 4]) >>= Padding.fromPairs) = .ok (.ints [1, 2, 3, 4]) ∧
    Padding.toPairs (.ints [1, 2, 3]) = .error Fault.value ∧
    ∃ b', (Source.Keras.zeroPadding borderedImage).outcome { own := {} } = (.ok (), b') ∧
      ∀ (u : Vertex Layer) (s : Code.Scope), u.item = Source.layerAt b' 0 →
        (Target.Keras.spatialPads u).outcome s = (.ok [(1, 2), (3, 4)], s) := by
  obtain ⟨b', h⟩ : ∃ b', (Source.Keras.zeroPadding borderedImage).outcome { own := {} } = (.ok (), b') := ⟨_, rfl⟩
  obtain ⟨-, heven, hodd, hlayer⟩ := pads_round_trip
  exact ⟨heven _ rfl, (hodd [1, 2, 3] rfl).2, b', h, hlayer _ _ _ _ _ [(1, 2), (3, 4)] rfl rfl rfl h⟩

end NetBridge
