import NetBridge.Target.Generator
import NetBridge.Proofs.CodeSteps

/-!
# Where Caffe code finds its arrays

Rules lay arrays out and file them under the variables that their lines set (`LaidOut`). As long as these differ, every
array is in the end where the line that needs it looks (`filed_under_targets`).
-/

namespace NetBridge

open Table List LayerGraph

namespace Code

open Run
open LayerGraph (graphOf)

/-! ## Steps on the arrays -/

section
variable {s : Scope} {layer name : String}

theorem layerWeights_spec : Triple (· = s) (layerWeights layer)
    fun own s' => s' = s ∧ s.weights.find? layer = some own := by
  refine .bind (Q := fun t s' => s' = s ∧ t = s) (.get fun _ h => ⟨h, h⟩) fun t => .lift fun own hown s' hs => ?_
  obtain ⟨rfl, rfl⟩ := hs
  exact ⟨rfl, get_eq_ok.mp hown⟩

theorem weight_spec : Triple (· = s) (weight layer name) fun t s' => s' = s ∧
    ∃ own, s.weights.find? layer = some own ∧ own.find? name = some (.array t) := by
  refine .bind_of layerWeights_spec fun own hown => ?_
  refine .bind_of (.lift fun x hx _ hs => ⟨hs, get_eq_ok.mp hx⟩) fun x hx => ?_
  cases x with
  | array t => exact .pure fun _ hs => ⟨hs, own, hown, hx⟩
  | _ => exact .throw

theorem setWeight_spec {t : Value} : Triple (· = s) (setWeight layer name t) fun _ s' =>
    s' = { s with weights := s.weights.modify layer fun w => w.insert name t } :=
  .modify fun _ ht => by rw [ht]

theorem moveWeights_spec {new : String} : Triple (· = s) (moveWeights layer new) fun _ s' =>
    ∃ own, s.weights.find? layer = some own ∧
      s' = { s with weights := (s.weights.erase layer).insert new own } :=
  .bind_of layerWeights_spec fun own hown => .modify fun t ht => ⟨own, hown, by rw [ht]⟩

theorem kernelToFront_spec {dim : Int} : Triple (· = s) (kernelToFront layer dim) fun _ s' =>
    ∃ own t t', s.weights.find? layer = some own ∧ own.find? "weights" = some (.array t) ∧
      t.transpose (Axes.kernelChannelsFirst dim) = .ok t' ∧
      s' = { s with weights := s.weights.modify layer fun w => w.insert "weights" (.array t') } := by
  refine .bind_of weight_spec fun t ht => ?_
  obtain ⟨own, hown, ht⟩ := ht
  refine .bind_of (.lift fun t' ht' _ hs => ⟨hs, ht'⟩) fun t' ht' => ?_
  exact setWeight_spec.post fun _ _ hs => ⟨own, t, t', hown, ht, ht', hs⟩

end

/-! ## The layer that a dense layer reads -/

/-- The nearest layer, from a name on towards the sources, that is not a flattening. -/
inductive Behind (g : Graph Layer) : String → Layer → Prop
  | here {m : String} {v : Vertex Layer} (hv : g.vertices.find? m = some v) (hop : v.item.op ≠ "Flatten") :
    Behind g m v.item
  | past {m p : String} {v : Vertex Layer} {l : Layer} (hv : g.vertices.find? m = some v)
    (hop : v.item.op = "Flatten") (hp : v.sources.head? = some p) (hl : Behind g p l) : Behind g m l

section
variable {n : Network} {out : String → String} {s : Scope} {m p : String} {v : Vertex Layer}

theorem idxOf_source_lt (hm : m ∈ (graphOf n).order) (hp : p ∈ (graphOf n).sourcesOf m) :
    p ∈ (graphOf n).order ∧ (graphOf n).order.idxOf p < (graphOf n).order.idxOf m := by
  obtain ⟨pre, post, horder, hnew⟩ := eq_append_cons_of_mem hm
  have hmem : p ∈ pre := preceded_order_graphOf n pre m post horder p hp
  refine ⟨horder ▸ mem_append_left _ hmem, ?_⟩
  rw [horder, idxOf_append_of_mem hmem, idxOf_append_of_notMem hnew]
  have hlt := idxOf_lt_length_of_mem hmem
  omega

variable (hr : (graphOf n).Renamed out s.graph.graph)
include hr

theorem length_order_le : (graphOf n).order.length ≤ s.graph.graph.vertices.size := by
  have hsub : (graphOf n).order.Subperm s.graph.graph.vertices.keys := by
    refine (nodup_order_graphOf n).subperm fun m hm => ?_
    obtain ⟨v, hv⟩ := mem_keys_iff.mp (mem_keys_of_order_graphOf hm)
    exact mem_keys_iff.mpr ⟨_, by rw [hr m, hv]; rfl⟩
  simpa [Table.keys, Table.size] using hsub.length_le

-- the fuel outlasts the walk because every step moves towards the start of the order
theorem unflattened_behind (fuel : Nat) (hv : s.graph.graph.vertices.find? m = some v)
    (hm : m ∈ (graphOf n).order) (hfuel : (graphOf n).order.idxOf m < fuel) :
    Triple (· = s) (unflattened fuel v) fun w s' => s' = s ∧ Behind (graphOf n) m w.item := by
  induction fuel generalizing m v with
  | zero => exact absurd hfuel (Nat.not_lt_zero _)
  | succ fuel ih =>
    obtain ⟨u, hu, rfl⟩ := hr.of_find? hv
    obtain ⟨rfl, -⟩ := named_graphOf hu
    unfold unflattened
    split
    · rename_i hop
      refine .bind_of parent_known fun w hw => ?_
      obtain ⟨v', p, hv', hp, hw⟩ := hw
      cases hv.symm.trans hv'
      have hsource : p ∈ (graphOf n).sourcesOf u.name := by
        rw [Graph.sourcesOf_of_find? hu]
        exact List.mem_of_head? hp
      obtain ⟨hmem, hlt⟩ := idxOf_source_lt hm hsource
      refine (ih hw hmem (by omega)).post fun a t ht => ⟨ht.1, ?_⟩
      exact .past hu hop hp ht.2
    · rename_i hop
      exact .pure fun t ht => ⟨ht, .here (v := u) hu hop⟩

theorem denseMatrix_spec (hm : v.name ∈ (graphOf n).order) : Triple (· = s) (denseMatrix v) fun t' s' => s' = s ∧
      ∃ p l shape shapes own t t₁, ((graphOf n).sourcesOf v.name).head? = some p ∧ Behind (graphOf n) p l ∧
        l.shapes "_output_shapes" = shape :: shapes ∧ s.weights.find? v.name = some own ∧
        own.find? "weights" = some (.array t) ∧ relayRows shape t = .ok t₁ ∧ t₁.transpose [1, 0] = .ok t' := by
  have hsource : Triple (· = s) (denseSource v) fun w s' => s' = s ∧
      ∃ p, ((graphOf n).sourcesOf v.name).head? = some p ∧ Behind (graphOf n) p w.item := by
    refine .bind_of (p := fun h => h = s.graph.graph) ?_ fun h hh => ?_
    · refine .bind (Q := fun t s' => s' = s ∧ t = s) (.get fun _ h => ⟨h, h⟩) fun t => .pure fun _ h => ?_
      exact ⟨h.1, by rw [h.2]⟩
    refine .bind_of parent_known fun w hw => ?_
    obtain ⟨x, p, hx, hp, hw⟩ := hw
    obtain ⟨u, hu, rfl⟩ := hr.of_find? hx
    have hhead : ((graphOf n).sourcesOf v.name).head? = some p := by rwa [Graph.sourcesOf_of_find? hu]
    obtain ⟨hmem, -⟩ := idxOf_source_lt hm (mem_of_head? hhead)
    have hfuel : (graphOf n).order.idxOf p < h.vertices.size := by
      rw [hh]
      exact (idxOf_lt_length_of_mem hmem).trans_le (length_order_le hr)
    exact (unflattened_behind hr _ hw hmem hfuel).post fun a t ht => ⟨ht.1, p, hhead, ht.2⟩
  refine .bind_of hsource fun w hw => ?_
  obtain ⟨p, hp, hbehind⟩ := hw
  refine .bind_of (p := fun shape => ∃ shapes, w.item.shapes "_output_shapes" = shape :: shapes) ?_
    fun shape hshape => ?_
  · unfold outputShape
    split
    · rename_i shape shapes hshapes
      exact .pure fun _ h => ⟨h, shapes, hshapes⟩
    · exact .throw
  obtain ⟨shapes, hshapes⟩ := hshape
  refine .bind_of weight_spec fun t ht => ?_
  obtain ⟨own, hown, ht⟩ := ht
  refine .bind_of (.lift fun _ h _ hs => ⟨hs, h⟩) fun t₁ ht₁ => ?_
  exact .lift fun t' ht' _ hs => ⟨hs, p, w.item, shape, shapes, own, t, t₁, hp, hbehind, hshapes, hown, ht, ht₁, ht'⟩

end

end Code

namespace Target.Caffe

open Code Run
open LayerGraph (graphOf)

/-! ## What one layer files -/

def relaid : List String := ["Conv", "FullyConnected", "BatchNorm"]

structure Split (own a b : Table Value) : Prop where
  bias : "bias" ∈ own.keys
  -- the mean and the variance stay as they are, beside a scale of one
  statistics : ∀ key, a.find? key = if key = "bias" then none else if key = "scale" then
    (own.find? key).map fun _ => .int 1 else own.find? key
  scaling : ∀ key, b.find? key = if key = "bias" ∨ key = "scale" then own.find? key else none

inductive LaidOut (g : Graph Layer) (l : Layer) (own : Table Value) : List (String × Table Value) → Prop
  | kernel {strides : Value} {rank : Nat} {t t' : Tensor} (hop : l.op = "Conv")
    (hstrides : l.get "strides" = .ok strides) (hrank : strides.length = .ok rank)
    (ht : own.find? "weights" = some (.array t))
    (ht' : t.transpose (Axes.kernelChannelsFirst (rank - 2)) = .ok t') :
    LaidOut g l own [(variableName l.name, own.insert "weights" (.array t'))]
  | matrix {p : String} {b : Layer} {shape : List Int} {shapes : List (List Int)} {t t₁ t' : Tensor}
    (hop : l.op = "FullyConnected") (hp : (g.sourcesOf l.name).head? = some p) (hb : Behind g p b)
    (hshape : b.shapes "_output_shapes" = shape :: shapes) (ht : own.find? "weights" = some (.array t))
    (ht₁ : relayRows shape t = .ok t₁) (ht' : t₁.transpose [1, 0] = .ok t') :
    LaidOut g l own [(variableName l.name, own.insert "weights" (.array t'))]
  | norm {a b : Table Value} (hop : l.op = "BatchNorm") (hsplit : Split own a b) :
    LaidOut g l own [(variableName l.name, a), (variableName l.name ++ "_scale", b)]

def Refiled (g : Graph Layer) (l : Layer) (w : Weights) (ls : List Line) (w' : Weights) : Prop :=
  ∃ own fs, w.find? l.name = some own ∧ LaidOut g l own fs ∧ ls.map (·.target) = fs.map (fun e => some e.1) ∧
    ∀ k, w'.find? k = (Table.findIn k fs).or (if k = l.name then none else w.find? k)

variable {a b : Layer} {k layer scaled : String} {out : String → String}

section
variable {g : Graph Layer} {s : Scope} {v : Vertex Layer}

variable {own : Table Value} {w' w : Weights}

theorem refiled_one {e : Table Value} {l : Line} (hname : v.name = v.item.name)
    (hout : v.outputName = v.item.name) (hl : l.target = some v.variableName)
    (hown : s.weights.find? v.name = some own) (hlaid : LaidOut g v.item own [(variableName v.item.name, e)])
    {f : Table Value → Table Value} {e' : Table Value} (he' : (s.weights.modify v.name f).find? v.name = some e')
    (hf : f own = e) (hw' : w' = ((s.weights.modify v.name f).erase v.name).insert v.variableName e') :
    Refiled g v.item s.weights [l] w' := by
  have hvar : v.variableName = variableName v.item.name := by rw [Vertex.variableName, hout]
  rw [find?_modify, if_pos rfl, hown, Option.map_some, hf, Option.some.injEq] at he'
  refine ⟨own, _, hname ▸ hown, hlaid, by simp [hl, hvar], fun k => ?_⟩
  rw [hw', ← he', hvar, ← hname]
  by_cases hk : variableName v.name = k
  · simp [findIn, hk]
  · by_cases hk' : v.name = k
    · simp [findIn, hk']
    · simp [findIn, hk, hk', Ne.symm hk']

theorem scaled_ne (m : String) : variableName m ++ "_scale" ≠ m := by
  intro h
  have hlen : (variableName m).toList.length + "_scale".toList.length = m.toList.length := by
    rw [← length_append, ← String.toList_append, h]
  rw [variableName, String.toList_ofList] at hlen
  exact absurd hlen (by simp)

def Beside (w : Weights) (layer scaled : String) (a b : Table Value) (w' : Weights) : Prop :=
  ∀ k, w'.find? k = if k = layer then some a else if k = scaled then some b else w.find? k

theorem Beside.find?_move {a b : Table Value} (hne : scaled ≠ layer)
    (h : Beside w layer scaled a b w') (y k : String) : ((w'.erase layer).insert y a).find? k =
      (findIn k [(y, a), (scaled, b)]).or (if k = layer then none else w.find? k) := by
  rw [find?_insert, find?_erase, h k]
  by_cases hk : y = k
  · simp [findIn, hk]
  · by_cases hk' : k = layer
    · simp [findIn, hk', hne]
    · by_cases hk'' : k = scaled
      · simp [findIn, hk, ← hk'', hk', Ne.symm hk']
      · simp [findIn, hk, hk', hk'', Ne.symm hk', Ne.symm hk'']

theorem moveBias_spec (hne : scaled ≠ layer) {a b : Table Value} (hw : Beside s.weights layer scaled a b w) :
    Triple (· = { s with weights := w }) (do
        let bias ← own.get "bias" Fault.key
        setWeight scaled "bias" bias
        modify fun s => { s with weights := s.weights.modify layer fun w => w.erase "bias" })
      fun _ s' => ∃ x w', own.find? "bias" = some x ∧ s' = { s with weights := w' } ∧
        Beside s.weights layer scaled (a.erase "bias") (b.insert "bias" x) w' := by
  refine .bind_of (.lift fun x hx _ hs => ⟨hs, get_eq_ok.mp hx⟩) fun x hx => ?_
  refine .bind setWeight_spec fun _ => .modify ?_
  rintro _ rfl
  refine ⟨x, _, hx, rfl, fun k => ?_⟩
  rw [find?_modify, find?_modify, hw k]
  by_cases hk : k = layer
  · simp [hk, hne]
  · by_cases hk' : k = scaled
    · simp [hk', hne, hne.symm]
    · simp [hk, hk', Ne.symm hk, Ne.symm hk']

theorem splitScale_spec (hne : scaled ≠ layer) :
    Triple (· = s) (splitScale layer scaled) fun _ s' => ∃ own a b w', s.weights.find? layer = some own ∧
      Split own a b ∧ s' = { s with weights := w' } ∧ Beside s.weights layer scaled a b w' := by
  refine .bind (Q := fun _ s' => s' = { s with weights := s.weights.insert scaled ∅ })
    (.modify fun _ h => by rw [h]) fun _ => ?_
  refine .bind_of layerWeights_spec fun own hown => ?_
  have hfind : s.weights.find? layer = some own := by simpa [hne] using hown
  rcases hscale : own.find? "scale" with _ | t
  on_goal 1 =>
    have hw : Beside s.weights layer scaled own ∅ (s.weights.insert scaled ∅) := by
      intro k
      by_cases hk : k = layer
      · simp [hk, hne, hfind]
      · simp [hk, eq_comm]
    refine (moveBias_spec hne hw).post ?_
  on_goal 2 =>
    have hw : Beside s.weights layer scaled (own.insert "scale" (.int 1)) (insert ∅ "scale" t)
        (((s.weights.insert scaled ∅).modify scaled fun w => w.insert "scale" t).modify layer
          fun w => w.insert "scale" (.int 1)) := by
      intro k
      by_cases hk : k = layer
      · simp [hk, hne, hfind]
      · by_cases hk' : k = scaled
        · simp [hk', hne, hne.symm]
        · simp [hk, hk', Ne.symm hk, Ne.symm hk']
    refine .bind setWeight_spec fun _ => .bind setWeight_spec fun _ => (moveBias_spec (s := s) hne hw).post ?_
  all_goals
    rintro _ _ ⟨x, w', hx, rfl, hw'⟩
    refine ⟨own, _, _, w', hfind, ⟨mem_keys_of_find? hx, fun key => ?_, fun key => ?_⟩, rfl, hw'⟩
    · by_cases hk : key = "scale"
      · simp [hk, hscale]
      · simp [hk, eq_comm]
    · by_cases hk : key = "scale"
      · simp [hk, hscale]
      · by_cases hk' : key = "bias"
        · simp [hk', hx]
        · simp [hk, hk', Ne.symm hk, Ne.symm hk']

variable (hloaded : s.loaded = true) (hname : v.name = v.item.name) (hout : v.outputName = v.item.name)
include hloaded hname hout

theorem conv_refiled (hop : v.item.op = "Conv") : Triple (· = s) (conv v) fun ls s' =>
    s'.graph = s.graph ∧ s'.loaded = true ∧ Refiled g v.item s.weights ls s'.weights := by
  refine .look fun above => ?_
  refine .look fun pads => .look fun height => .look fun pads' => .look fun width => ?_
  refine .look fun x => .look fun shape => .look fun kernel => .look fun strides => ?_
  refine .look fun stride => .look fun shape' => .look fun filters => .look fun group => ?_
  refine .look fun bias => ?_
  refine .bind_of (.lift fun _ h _ hs => ⟨hs, h⟩)
    fun strides' hstrides => ?_
  refine .bind_of (.lift fun _ h _ hs => ⟨hs, h⟩)
    fun rank hrank => ?_
  refine .bind_of (.get fun t ht => ⟨ht, ht ▸ hloaded⟩) fun t ht => ?_
  rw [if_pos ht]
  refine .bind kernelToFront_spec fun _ => ?_
  rintro _ ⟨own, k, k', hown, hk, hk', rfl⟩
  refine (Triple.bind moveWeights_spec fun _ => .pure ?_) _ rfl
  rintro _ ⟨e', he', rfl⟩
  refine ⟨rfl, hloaded, refiled_one hname hout rfl hown ?_ he' rfl rfl⟩
  exact .kernel hop hstrides hrank hk hk'

theorem dense_refiled {n : Network} (hr : (graphOf n).Renamed out s.graph.graph) (hm : v.name ∈ (graphOf n).order)
    (hop : v.item.op = "FullyConnected") : Triple (· = s) (dense v) fun ls s' => s'.graph = s.graph ∧ s'.loaded = true ∧
      Refiled (graphOf n) v.item s.weights ls s'.weights := by
  refine .look fun x => .look fun bias => ?_
  refine .bind_of (.get fun t ht => ⟨ht, ht ▸ hloaded⟩) fun t ht => ?_
  rw [if_pos ht]
  refine .bind_of (denseMatrix_spec hr hm) fun t' ht' => ?_
  obtain ⟨p, b, shape, shapes, own, t, t₁, hp, hb, hshape, hown, ht, ht₁, ht'⟩ := ht'
  refine .bind setWeight_spec fun _ => .bind moveWeights_spec fun _ => .pure ?_
  rintro _ ⟨e', he', rfl⟩
  refine ⟨rfl, hloaded, refiled_one hname hout rfl hown ?_ he' rfl rfl⟩
  exact .matrix hop (hname ▸ hp) hb hshape ht ht₁ ht'

theorem batchNorm_refiled (hr : g.Renamed out s.graph.graph) (hop : v.item.op = "BatchNorm") :
    Triple (· = s) (batchNorm v) fun ls s' => (∃ q, g.Renamed (Graph.renameAt out v.name q) s'.graph.graph) ∧
      s'.loaded = true ∧ Refiled g v.item s.weights ls s'.weights := by
  refine .look fun x => .look fun epsilon => .look fun t => ?_
  extract_lets fixed y scaled
  refine .look fun bias => ?_
  refine .bind_of (.get fun t ht => ⟨ht, ht ▸ hloaded⟩) fun t ht => ?_
  rw [if_pos ht]
  have hy : y = variableName v.item.name := by rw [← hout]; rfl
  have hne : scaled ≠ v.name := by
    rw [show scaled = variableName v.item.name ++ "_scale" by rw [← hy], hname]
    exact scaled_ne v.item.name
  refine .bind (splitScale_spec hne) fun _ => ?_
  rintro _ ⟨own, a, b, w, hown, hsplit, rfl, hw⟩
  refine (Triple.bind moveWeights_spec fun _ => ?_) _ rfl
  rintro _ ⟨a', ha', rfl⟩
  refine (Triple.bind (Q := fun _ s' => s'.weights = (w.erase v.name).insert y a' ∧ s'.loaded = true ∧
    g.Renamed (Graph.renameAt out v.name (v.name ++ "_scale")) s'.graph.graph) (.modify ?_) fun _ => .pure ?_) _ rfl
  · rintro _ rfl
    exact ⟨rfl, hloaded, hr.modify v.name _⟩
  rintro s' ⟨hweights, hloaded', hrenamed⟩
  obtain rfl : a = a' := by
    rw [show find? w v.name = some a from by rw [hw, if_pos rfl]] at ha'
    exact Option.some.inj ha'
  refine ⟨⟨_, hrenamed⟩, hloaded', own, _, hname ▸ hown, .norm hop hsplit, ?_, fun k => ?_⟩
  · rw [← hy]
    rfl
  · rw [hweights, hw.find?_move hne y k]
    simp only [scaled, hy, hname]

end

/-! ## The turn of a layer -/

/-- After the turn of a layer its arrays are laid out if it has any that are, and only its own output may have another
name. -/
structure Turn (g : Graph Layer) (out : String → String) (v : Vertex Layer) (w : Weights) (ls : List Line)
    (s : Scope) : Prop where
  renamed : ∃ q, g.Renamed (Graph.renameAt out v.name q) s.graph.graph
  loaded : s.loaded = true
  refiled : v.item.op ∈ relaid → Refiled g v.item w ls s.weights
  kept : v.item.op ∉ relaid → s.weights = w

section
variable {v : Vertex Layer}

instance : Looks (pool v) := by
  refine .step fun _ => .step fun kind => .step fun x => ?_
  split <;> infer_instance

instance : Looks (dataInput v) := by
  have hrest (x : Value) : Looks (match x with
      | .shape ds => do
        let sizes := ds.map fun d => if d > 0 then d else 1
        let batch ← Value.nth sizes 0
        let channels ← Value.nth sizes (-1)
        return [field v.variableName ["L.Input(shape=[dict(dim=",
          intList ([batch, channels] ++ Value.inner sizes), ")], ntop=1)"]]
      | _ => throw Fault.property : Emit (List Line)) := by
    cases x <;> infer_instance
  unfold dataInput
  infer_instance

instance : Looks (dropout v) := by unfold dropout; infer_instance

instance : Looks (lrn v) := by unfold lrn; infer_instance

instance : Looks (add v) := by unfold add; infer_instance

instance : Looks (concat v) := by unfold concat; infer_instance

instance (function : String) : Looks (inPlace function v) := by unfold inPlace; infer_instance

instance : Looks (softmax v) := by unfold softmax; infer_instance

instance (operation : String) : Looks (reduction operation v) := by unfold reduction; infer_instance

end

section
variable {n : Network} {out : String → String} {s : Scope} {v : Vertex Layer} (hloaded : s.loaded = true)
  (hr : (graphOf n).Renamed out s.graph.graph)
include hloaded hr

theorem Looks.turn {x : Emit (List Line)} [hx : Looks x] (hop : v.item.op ∉ relaid) :
    Triple (· = s) x (Turn (graphOf n) out v s.weights) := by
  refine keeps_looking.post ?_
  rintro ls _ rfl
  exact ⟨⟨out v.name, by rwa [Graph.renameAt_same]⟩, hloaded, fun h => absurd h hop, fun _ => rfl⟩

theorem skipped_turn (hop : v.item.op ∉ relaid) : Triple (· = s) (skipped v) (Turn (graphOf n) out v s.weights) := by
  refine .bind (Q := fun _ t => ∃ q, t = { s with graph := { s.graph with graph :=
      (s.graph.graph.modify v.name fun u => { u with outputName := q }) } }) ?_ fun _ => .pure ?_
  · exact .look fun w => .modify fun t ht => ⟨w.outputName, by rw [ht]⟩
  · rintro _ ⟨q, rfl⟩
    exact ⟨⟨q, hr.modify v.name q⟩, hloaded, fun h => absurd h hop, fun _ => rfl⟩

theorem unknown_turn (hop : v.item.op ∉ relaid) : Triple (· = s) (unknown v) (Turn (graphOf n) out v s.weights) := by
  refine .bind say_known fun _ => .pure ?_
  rintro _ rfl
  exact ⟨⟨out v.name, by rwa [Graph.renameAt_same]⟩, hloaded, fun h => absurd h hop, fun _ => rfl⟩

theorem ruleOr_turn (hname : v.name = v.item.name) (hout : v.outputName = v.item.name)
    (hm : v.name ∈ (graphOf n).order) :
    Triple (· = s) (ruleOr "CaffeEmitter" rule v) (Turn (graphOf n) out v s.weights) := by
  -- a rule that lays arrays out, and leaves the graph alone
  have hlaid {x : Emit (List Line)} (hop : v.item.op ∈ relaid) (hx : Triple (· = s) x fun ls s' =>
      s'.graph = s.graph ∧ s'.loaded = true ∧ Refiled (graphOf n) v.item s.weights ls s'.weights) :
      Triple (· = s) x (Turn (graphOf n) out v s.weights) := by
    refine hx.post fun ls t ht => ⟨⟨out v.name, ?_⟩, ht.2.1, fun _ => ht.2.2, fun h => absurd hop h⟩
    rwa [Graph.renameAt_same, ht.1]
  unfold ruleOr
  cases hrule : rule v.item.op with
  | none =>
    have hop : v.item.op ∉ relaid := by
      intro h
      simp only [relaid, mem_cons, not_mem_nil, or_false] at h
      rcases h with h | h | h
      all_goals
        rw [h] at hrule
        cases hrule
    exact .bind say_known fun _ => unknown_turn hloaded hr hop
  | some r =>
    unfold rule at hrule
    split at hrule
    all_goals cases hrule
    all_goals rename_i hop
    all_goals first
      | with_reducible exact hlaid (by rw [hop]; decide) (conv_refiled hloaded hname hout hop)
      | with_reducible exact hlaid (by rw [hop]; decide) (dense_refiled hloaded hname hout hr hm hop)
      | with_reducible exact (batchNorm_refiled hloaded hname hout hr hop).post fun ls t ht =>
          ⟨ht.1, ht.2.1, fun _ => ht.2.2, fun h => absurd (by rw [hop]; decide) h⟩
      | with_reducible exact unknown_turn hloaded hr (by rw [hop]; decide)
      | with_reducible exact skipped_turn hloaded hr (by rw [hop]; decide)
      | exact Looks.turn hloaded hr (by rw [hop]; decide)

end

/-! ## Names that do not meet -/

def ownVariables (l : Layer) : List String :=
  variableName l.name :: if l.op = "BatchNorm" then [variableName l.name ++ "_scale"] else []

def filedUnder (l : Layer) : List String := if l.op ∈ relaid then ownVariables l else [l.name]

variable {l : Layer}

theorem variableName_of_mem (hk : k ∈ ownVariables l) : variableName k = k := by
  refine variableName_eq_self fun c hc => ?_
  rcases mem_cons.mp hk with rfl | hk
  · exact of_mem_variableName hc
  · have hscaled : k = variableName l.name ++ "_scale" := by
      split at hk
      · exact mem_singleton.mp hk
      · cases hk
    rw [hscaled, String.toList_append, mem_append] at hc
    rcases hc with hc | hc
    · exact of_mem_variableName hc
    · have hplain : "_scale".toList.all (fun c => c != '/' && c != '-') = true := by decide
      simpa using all_eq_true.mp hplain c hc

theorem LaidOut.names {g : Graph Layer} {own : Table Value} {fs : List (String × Table Value)}
    (h : LaidOut g l own fs) : fs.map (·.1) = filedUnder l := by
  cases h with
  | kernel hop => simp [filedUnder, ownVariables, relaid, hop]
  | matrix hop => simp [filedUnder, ownVariables, relaid, hop]
  | norm hop => simp [filedUnder, ownVariables, relaid, hop]

section
variable {n : Network} (hvars : (n.layers.flatMap ownVariables).Nodup)
include hvars

theorem ownVariables_apart (ha : a ∈ n.layers) (hb : b ∈ n.layers) (hne : a ≠ b)
    (hk : k ∈ ownVariables a) : k ∉ ownVariables b := by
  have : Std.Symm (Function.onFun List.Disjoint ownVariables) := ⟨fun _ _ h => h.symm⟩
  exact (nodup_flatMap.mp hvars).2.forall ha hb hne hk

theorem eq_of_name_eq (ha : a ∈ n.layers) (hb : b ∈ n.layers) (h : a.name = b.name) : a = b := by
  by_contra hne
  refine ownVariables_apart hvars ha hb hne (.head _) ?_
  rw [h]
  exact .head _

theorem filedUnder_apart (ha : a ∈ n.layers) (hb : b ∈ n.layers) (hne : a ≠ b) (hop : a.op ∈ relaid)
    (hk : k ∈ filedUnder a) : k ≠ b.name ∧ k ∉ filedUnder b := by
  rw [filedUnder, if_pos hop] at hk
  have hname : k ≠ b.name := by
    intro h
    refine ownVariables_apart hvars ha hb hne hk ?_
    rw [← variableName_of_mem hk, h]
    exact .head _
  refine ⟨hname, ?_⟩
  unfold filedUnder
  split
  · exact ownVariables_apart hvars ha hb hne hk
  · exact fun h => hname (mem_singleton.mp h)

end

/-! ## All layers -/

def Filed (g : Graph Layer) (l : Layer) (w : Weights) (body : List (String × List Line)) (w' : Weights) : Prop :=
  ∃ own fs ls, w.find? l.name = some own ∧ LaidOut g l own fs ∧ (l.name, ls) ∈ body ∧
    ls.map (·.target) = fs.map (fun e => some e.1) ∧ ∀ e ∈ fs, w'.find? e.1 = some e.2

structure Filing (n : Network) (w : Weights) (done : List String) (body : List (String × List Line))
    (s : Scope) : Prop where
  loaded : s.loaded = true
  filed : ∀ l ∈ n.layers, l.name ∈ done → l.op ∈ relaid → Filed (graphOf n) l w body s.weights
  kept : ∀ l ∈ n.layers, l.name ∉ done ∨ l.op ∉ relaid → s.weights.find? l.name = w.find? l.name
  within : ∀ k ∈ s.weights.keys,
    ∃ l ∈ n.layers, l.name ∈ done ∧ k ∈ filedUnder l ∨ l.name ∉ done ∧ k = l.name

section
variable {n : Network} (hvars : (n.layers.flatMap ownVariables).Nodup) {w : Weights} {done : List String}
  {body : List (String × List Line)} {s s' : Scope} {l : Layer} {ls : List Line}
include hvars

theorem Filing.refile (h : Filing n w done body s) (hl : l ∈ n.layers) (hop : l.op ∈ relaid) (hnew : l.name ∉ done)
    (hre : Refiled (graphOf n) l s.weights ls s'.weights) (hloaded : s'.loaded = true) :
    Filing n w (done ++ [l.name]) (body ++ [(l.name, ls)]) s' := by
  obtain ⟨own, fs, hown, hlaid, htargets, hfind⟩ := hre
  rw [h.kept l hl (Or.inl hnew)] at hown
  have hnames {k : String} : (findIn k fs).isSome = true ↔ k ∈ filedUnder l := by
    rw [← hlaid.names]
    exact findIn_isSome_iff k fs
  -- what other layers hold or have filed stays
  have hother {k : String} (hk : k ∉ filedUnder l) (hname : k ≠ l.name) : s'.weights.find? k = s.weights.find? k := by
    rw [← hnames, Option.not_isSome_iff_eq_none] at hk
    rw [hfind k, hk, if_neg hname]
    rfl
  have hne {a : Layer} (ha : a ∈ n.layers) (hal : a ≠ l) : a.name ≠ l.name := fun e => hal (eq_of_name_eq hvars ha hl e)
  refine ⟨hloaded, fun a ha hdone hao => ?_, fun a ha hkept => ?_, fun k hk => ?_⟩
  · by_cases hal : a = l
    · subst hal
      have hnodup : (fs.map (·.1)).Nodup := by
        rw [hlaid.names, filedUnder, if_pos hop]
        exact (nodup_flatMap.mp hvars).1 a hl
      refine ⟨own, fs, ls, hown, hlaid, by simp, htargets, fun e he => ?_⟩
      rw [hfind e.1, (findIn_eq_some_iff hnodup).mpr he]
      rfl
    · have hbefore : a.name ∈ done := by simpa [hne ha hal] using hdone
      obtain ⟨own', fs', ls', hown', hlaid', hmem, htargets', hfs'⟩ := h.filed a ha hbefore hao
      refine ⟨own', fs', ls', hown', hlaid', mem_append_left _ hmem, htargets', fun e he => ?_⟩
      have hfiled : e.1 ∈ filedUnder a := hlaid'.names ▸ mem_map_of_mem he
      obtain ⟨hname, hunder⟩ := filedUnder_apart hvars ha hl hal hao hfiled
      rw [hother hunder hname]
      exact hfs' e he
  · have hal : a ≠ l := by
      rintro rfl
      exact hkept.elim (fun hd => hd (by simp)) fun ho => ho hop
    have hunder : a.name ∉ filedUnder l := fun hk => (filedUnder_apart hvars hl ha (.symm hal) hop hk).1 rfl
    rw [hother hunder (hne ha hal)]
    exact h.kept a ha (hkept.imp_left fun hd hm => hd (mem_append_left _ hm))
  · by_cases hunder : k ∈ filedUnder l
    · exact ⟨l, hl, .inl ⟨by simp, hunder⟩⟩
    · have hname : k ≠ l.name := by
        rintro rfl
        refine find?_eq_none_iff.mp ?_ hk
        rw [← hnames, Option.not_isSome_iff_eq_none] at hunder
        rw [hfind l.name, hunder, if_pos rfl]
        rfl
      rw [mem_keys_iff, hother hunder hname, ← mem_keys_iff] at hk
      obtain ⟨a, ha, ⟨hd, hk⟩ | ⟨hd, rfl⟩⟩ := h.within k hk
      · exact ⟨a, ha, .inl ⟨mem_append_left _ hd, hk⟩⟩
      · exact ⟨a, ha, .inr ⟨by simp [hd, hname], rfl⟩⟩

theorem Filing.keep (h : Filing n w done body s) (hl : l ∈ n.layers) (hop : l.op ∉ relaid)
    (hsame : s'.weights = s.weights) (hloaded : s'.loaded = true) :
    Filing n w (done ++ [l.name]) (body ++ [(l.name, ls)]) s' := by
  refine ⟨hloaded, fun a ha hdone hao => ?_, fun a ha hkept => ?_, fun k hk => ?_⟩
  · have hne : a.name ≠ l.name := by
      intro e
      rw [eq_of_name_eq hvars ha hl e] at hao
      exact hop hao
    have hbefore : a.name ∈ done := by simpa [hne] using hdone
    obtain ⟨own, fs, ls', hown, hlaid, hmem, htargets, hfs⟩ := h.filed a ha hbefore hao
    exact ⟨own, fs, ls', hown, hlaid, mem_append_left _ hmem, htargets, by rwa [hsame]⟩
  · rw [hsame]
    exact h.kept a ha (hkept.imp_left fun hd hm => hd (mem_append_left _ hm))
  · rw [hsame] at hk
    obtain ⟨a, ha, ⟨hd, hk⟩ | ⟨hd, rfl⟩⟩ := h.within k hk
    · exact ⟨a, ha, .inl ⟨mem_append_left _ hd, hk⟩⟩
    · by_cases hal : a.name = l.name
      · refine ⟨l, hl, .inl ⟨by simp, ?_⟩⟩
        rw [filedUnder, if_neg hop, hal]
        exact mem_singleton_self _
      · exact ⟨a, ha, .inr ⟨by simp [hd, hal], rfl⟩⟩

theorem emitAll_filing (hgraph : s.graph.graph = graphOf n) (hstart : Filing n w [] [] s)
    (h : (emitAll (ruleOr "CaffeEmitter" rule)).outcome s = (.ok body, s')) : body.map (·.1) = (graphOf n).order ∧
      ∃ out, (graphOf n).Renamed out s'.graph.graph ∧ Filing n w (graphOf n).order body s' := by
  refine emitAll_walk (I := fun done _ => Filing n w done) hgraph hstart (fun done out body v s ls t hd hs hrun => ?_) h
  obtain ⟨hl, hitem, -, hout⟩ := find?_graphOf hd.vertex
  have ht := ruleOr_turn hs.loaded hd.renamed hitem.symm (hout.trans hitem.symm) (hd.listed _ (by simp)) s rfl ls t hrun
  obtain ⟨q, hq⟩ := ht.renamed
  refine ⟨q, hq, ?_⟩
  have hnew := hd.new
  rw [← hitem] at hnew ⊢
  by_cases hop : v.item.op ∈ relaid
  · exact hs.refile hvars hl hop hnew (ht.refiled hop) ht.loaded
  · exact hs.keep hvars hl hop (ht.kept hop) ht.loaded

end

/-- **Arrays of Caffe code.** In a network without cycles whose layers all have an edge, with arrays for its layers
only, let the variables of the layers and of the scalings behind normalisations differ. When the code is done, every
convolution, dense layer and normalisation has its arrays laid out under the variables that its lines set; the arrays of
every other layer are as they were, under its own name; and there are no others. -/
theorem filed_under_targets (n : Network) (w : Weights) (phase text : String) (s : Scope)
    (hacyclic : ∀ a, ¬ Relation.TransGen n.Feeds a a) (hedges : ∀ m ∈ n.names, ∃ k, n.Feeds m k ∨ n.Feeds k m)
    (hkeys : ∀ k ∈ w.keys, k ∈ n.names) (hvars : (n.layers.flatMap ownVariables).Nodup)
    (hrun : code.outcome (startScope n (some w) phase) = (.ok text, s)) :
    ∃ body, text = CaffeText.head ++ "\n" ++ render (allLines body) ++ "\n" ++ CaffeText.tail ++ "\n" ∧
      body.map (·.1) = (graphOf n).order ∧
      (∀ l ∈ n.layers, l.op ∈ relaid → Filed (graphOf n) l w body s.weights) ∧
      (∀ l ∈ n.layers, l.op ∉ relaid → s.weights.find? l.name = w.find? l.name) ∧
      ∀ k ∈ s.weights.keys, ∃ l ∈ n.layers, k ∈ filedUnder l := by
  have hstart : Filing n w [] [] (startScope n (some w) phase) := by
    refine ⟨rfl, fun _ _ h => absurd h not_mem_nil, fun _ _ _ => rfl, fun k hk => ?_⟩
    obtain ⟨l, hl, rfl⟩ := mem_map.mp (hkeys k hk)
    exact ⟨l, hl, .inr ⟨not_mem_nil, rfl⟩⟩
  obtain ⟨body, s', hbody, htext⟩ := step_cases hrun
  obtain ⟨rfl, rfl⟩ := pure_eq_ok.mp htext
  obtain ⟨hwalked, -, -, h⟩ := emitAll_filing hvars rfl hstart hbody
  have hdone {l : Layer} (hl : l ∈ n.layers) : l.name ∈ (graphOf n).order := by
    rw [mem_order_of_acyclic hacyclic, mem_keys_graphOf]
    exact hedges l.name (mem_map_of_mem hl)
  refine ⟨body, rfl, hwalked, fun l hl hop => h.filed l hl (hdone hl) hop, fun l hl hop => h.kept l hl (.inr hop),
    fun k hk => ?_⟩
  obtain ⟨l, hl, ⟨-, hk⟩ | ⟨hnot, -⟩⟩ := h.within k hk
  · exact ⟨l, hl, hk⟩
  · exact absurd (hdone hl) hnot

def normedNet : Network := { layers := [
  { name := "x", op := "DataInput", attrs := .ofList [("shape", .shape [1, 3, 1, 2])] },
  { name := "c/1", op := "Conv", inputs := ["x"], attrs := .ofList [("kernel_shape", .list { ints := [1, 1, 2, 2] }),
    ("strides", .list { ints := [1, 1, 1, 1] }), ("pads", .list { ints := [0, 0, 0, 0, 0, 0, 0, 0] })] },
  { name := "b-1", op := "BatchNorm", inputs := ["c/1"],
    attrs := .ofList [("_output_shapes", .list { shapes := [[1, 3, 1, 2]] })] },
  { name := "f", op := "Flatten", inputs := ["b-1"] },
  { name := "d", op := "FullyConnected", inputs := ["f"], attrs := .ofList [("units", .int 2)] },
  { name := "p/1", op := "PRelu", inputs := ["d"] }] }

def counted (shape : List Nat) : Tensor := ⟨.int64, .ofFn shape fun ix => .int (rowMajor shape ix)⟩

def normedWeights : Weights := .ofList [
  ("c/1", .ofList [("weights", .array (counted [1, 1, 2, 2]))]),
  ("b-1", .ofList [("mean", .int 3), ("var", .int 4), ("scale", .int 5), ("bias", .int 6)]),
  ("d", .ofList [("weights", .array (counted [6, 2]))]),
  ("p/1", .ofList [("gamma", .int 7)])]

theorem filed_under_targets_normed : ∃ text s body,
    code.outcome (startScope normedNet (some normedWeights) "test") = (.ok text, s) ∧
    (∀ l ∈ normedNet.layers, l.op ∈ relaid →
      Filed (graphOf normedNet) l normedWeights body s.weights) ∧
    s.weights.find? "p/1" = normedWeights.find? "p/1" ∧ "c/1" ∉ s.weights.keys := by
  obtain ⟨text, s, hrun⟩ : ∃ text s, code.outcome (startScope normedNet (some normedWeights) "test") = (.ok text, s) :=
    ⟨_, _, rfl⟩
  have hedges : ∀ m ∈ normedNet.names, m ∈ (graphOf normedNet).vertices.keys := by decide +kernel
  obtain ⟨body, -, -, hfiled, hkept, hwithin⟩ := filed_under_targets normedNet normedWeights "test" text s
    (acyclic_of_order (by decide +kernel)) (fun m hm => mem_keys_graphOf.mp (hedges m hm))
    (by decide) (by decide) hrun
  refine ⟨text, s, body, hrun, hfiled, ?_, fun hk => ?_⟩
  · exact hkept { name := "p/1", op := "PRelu", inputs := ["d"] } (by simp [normedNet]) (by decide)
  · have hnone : ∀ l ∈ normedNet.layers, "c/1" ∉ filedUnder l := by decide
    obtain ⟨l, hl, hk⟩ := hwithin "c/1" hk
    exact hnone l hl hk

end Target.Caffe

end NetBridge
