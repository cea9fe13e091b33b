import NetBridge.Proofs.BuilderSteps

/-!
# What a rule leaves alone

Looking things up leaves the layers as they are (`Still`) and the graph but for marks (`Calm`). A rule that adds a layer
works on this one and keeps its name from then on (`Made`).
-/

namespace NetBridge.Source

open Run

variable {α σ κ β γ : Type}

/-- What is followed through a conversion: a part of what the vertices carry, and the names of the outputs of some
vertices. -/
structure Sight (α κ : Type) where
  item : α → κ
  names : String → Prop

def outputs (b : Builder α σ) (m : String) : Option String := (b.graph.vertices.find? m).map (·.outputName)

def marked (b : Builder α σ) (m : String) : Bool := (b.graph.vertices.find? m).any (·.covered)

namespace Sight

variable (s : Sight α κ)

def vertex (u : Vertex α) : Vertex κ :=
  { name := u.name, item := s.item u.item, sources := u.sources, targets := u.targets }

def vertices (b : Builder α σ) (m : String) : Option (Vertex κ) := (b.graph.vertices.find? m).map s.vertex

structure Calm (b b' : Builder α σ) : Prop where
  vertices : s.vertices b' = s.vertices b
  outputs : ∀ m, s.names m → outputs b' m = outputs b m
  marked : ∀ m, marked b m = true → marked b' m = true

structure Still (b b' : Builder α σ) : Prop extends s.Calm b b' where
  layers : b'.layers = b.layers

/-- Later on, layer `k` has the name that it had. -/
structure Within (k : Nat) (b b' : Builder α σ) : Prop extends s.Calm b b' where
  size : b'.layers.size = b.layers.size
  name : (layerAt b' k).name = (layerAt b k).name

/-- Later on, there is a layer `k` of the given name. -/
structure Made (name : String) (b : Builder α σ) (k : Nat) (b' : Builder α σ) : Prop extends s.Calm b b' where
  inside : k < b'.layers.size
  named : (layerAt b' k).name = name

variable {s} {b b' b'' : Builder α σ} {n name : String} {k : Nat}

theorem seen (s : Sight α κ) {v : Vertex α} (hv : b.graph.vertices.find? n = some v) :
    s.vertices b n = some (s.vertex v) := by
  rw [Sight.vertices, hv]
  rfl

theorem Calm.of_graph (h : b'.graph = b.graph) : s.Calm b b' := by
  refine ⟨?_, fun m _ => ?_, fun m hm => ?_⟩
  · funext m
    rw [Sight.vertices, Sight.vertices, h]
  · rw [Source.outputs, Source.outputs, h]
  · rw [Source.marked, h]
    exact hm

theorem Calm.trans (h : s.Calm b b') (h' : s.Calm b' b'') : s.Calm b b'' :=
  ⟨h'.vertices.trans h.vertices, fun m hm => (h'.outputs m hm).trans (h.outputs m hm),
    fun m hm => h'.marked m (h.marked m hm)⟩

theorem Still.refl (b : Builder α σ) : s.Still b b := ⟨.of_graph rfl, rfl⟩

theorem Still.trans (h : s.Still b b') (h' : s.Still b' b'') : s.Still b b'' :=
  ⟨h.toCalm.trans h'.toCalm, h'.layers.trans h.layers⟩

theorem Within.trans (h : s.Within k b b') (h' : s.Within k b' b'') : s.Within k b b'' :=
  ⟨h.toCalm.trans h'.toCalm, h'.size.trans h.size, h'.name.trans h.name⟩

theorem Still.within (h : s.Still b b') : s.Within k b b' :=
  ⟨h.toCalm, congrArg Array.size h.layers, by rw [layerAt, layerAt, h.layers]⟩

theorem Made.within (h : s.Made name b k b') (h' : s.Within k b' b'') : s.Made name b k b'' :=
  ⟨h.toCalm.trans h'.toCalm, h'.size ▸ h.inside, h'.name.trans h.named⟩

end Sight

/-! ## Looking things up -/

variable {f : Builder α σ → Builder α σ} {m : String}

theorem outputNameOf_outputs {P : Builder α σ → Prop} :
    Triple P (outputNameOf m : Build α σ String) fun q b => P b ∧ outputs b m = some q :=
  (vertex_found m).bind fun u => .pure fun b hb => ⟨hb.1, by rw [outputs, hb.2]; rfl⟩

variable {s : Sight α κ}

section

theorem Sight.stays_modify (hf : ∀ b, s.Still b (f b)) :
    Stays s.Still (modify f : Build α σ Unit) := ⟨fun _ => .modify fun b' h => h.trans (hf b')⟩

instance (line : String) : Stays s.Still (say line : Build α σ Unit) :=
  Sight.stays_modify fun _ => ⟨.of_graph rfl, rfl⟩

instance (key : String) (v : Value) : Stays s.Still (setWeight m key v : Build α σ Unit) :=
  Sight.stays_modify fun _ => ⟨.of_graph rfl, rfl⟩

variable {f : Vertex α → Vertex α}

theorem Sight.vertices_modify (hf : ∀ u, s.vertex (f u) = s.vertex u) (m : String)
    (b : Builder α σ) : s.vertices { b with graph := b.graph.modify m f } = s.vertices b := by
  funext x
  simp only [Sight.vertices, Graph.modify, Table.find?_modify]
  split
  · rw [Option.map_map, show s.vertex ∘ f = s.vertex from funext hf]
  · rfl

theorem Sight.still_modify (hf : ∀ u, s.vertex (f u) = s.vertex u)
    (ho : s.names m → ∀ u, (f u).outputName = u.outputName) (hc : ∀ u, u.covered = true → (f u).covered = true)
    (b : Builder α σ) : s.Still b { b with graph := b.graph.modify m f } := by
  refine ⟨⟨Sight.vertices_modify hf m b, fun x hx => ?_, fun x hx => ?_⟩, rfl⟩
  · simp only [outputs, Graph.modify, Table.find?_modify]
    split
    · rename_i e
      subst e
      rw [Option.map_map]
      exact congrArg (Option.map · _) (funext (ho hx))
    · rfl
  · simp only [marked, Graph.modify, Table.find?_modify] at hx ⊢
    split
    · cases hu : b.graph.vertices.find? x with
      | none => simp [hu] at hx
      | some u =>
        simp only [hu] at hx
        exact hc u hx
    · exact hx

theorem Sight.still_cover (m : String) (b : Builder α σ) :
    s.Still b { b with graph := b.graph.modify m fun u => { u with covered := true } } :=
  Sight.still_modify (f := fun u => { u with covered := true }) (fun _ => rfl) (fun _ _ => rfl) (fun _ _ => rfl) b

instance (m : String) : Stays s.Still (cover m : Build α σ Unit) := Sight.stays_modify (Sight.still_cover m)

theorem still_walk (d : Graph.Direction) (mark : Bool) (b : Builder α σ) (g : Graph α) (v : Vertex α)
    (path : List Int) (h : s.Still b { b with graph := g }) :
    s.Still b { b with graph := (Graph.walk d mark g v path).2 } := by
  induction path generalizing g v with
  | nil => exact h
  | cons i path ih =>
    have hstep (m : String) :
        s.Still b { b with graph := if mark then g.modify m fun w => { w with covered := true } else g } := by
      split
      · exact h.trans (Sight.still_cover m { b with graph := g })
      · exact h
    unfold Graph.walk
    split
    · exact h
    · exact h
    · dsimp only
      split
      · exact hstep _
      · exact ih _ _ (hstep _)

instance (d : Graph.Direction) (m : String) (path : List Int) (mark : Bool) :
    Stays s.Still (follow d m path mark : Build α σ (Option (Vertex α))) := by
  refine ⟨fun b₀ b hb a b' h => hb.trans ?_⟩
  obtain ⟨-, rfl⟩ := follow_eq_ok h
  unfold Graph.follow
  split
  · exact .refl b
  · exact still_walk d mark b b.graph _ path (.refl b)

end

/-! ## Working on a layer -/

section
variable {k : Nat}

instance (priority := low) (x : Build α σ β) [hx : Stays s.Still x] : Stays (s.Within k) x :=
  hx.mono .refl fun _ _ _ h h' => h.trans h'.within

theorem layerAt_edit (b : Builder α σ) (j i : Nat) (f : Layer → Layer) :
    layerAt { b with layers := b.layers.modify j f } i =
      if j = i ∧ i < b.layers.size then f (layerAt b i) else layerAt b i := by
  simp only [layerAt, Array.getD_eq_getD_getElem?, Array.getElem?_modify]
  by_cases hj : j = i
  · subst hj
    by_cases hi : j < b.layers.size
    · simp [hi]
    · simp [hi]
  · simp [hj]

theorem attr_touch (l : Layer) (name m : String) : (l.touch name).attr m = l.attr m := by
  rw [Layer.touch, Layer.attr, Table.findD_insert]
  split
  · rename_i h
    rw [h]
  · rfl

instance : Edits (s.Within k (σ := σ)) k Layer.name where
  edit b₀ b f h hf := by
    refine h.trans ⟨.of_graph rfl, Array.size_modify .., ?_⟩
    rw [layerAt_edit]
    split
    · exact hf
    · rfl
  touch _ _ := rfl

instance (op : String) : Stays (s.Within k) (setOp k op : Build α σ Unit) := stays_edit fun _ => rfl

instance (name : String) : Stays (s.Within k) (addInput k name : Build α σ Unit) := stays_edit fun _ => rfl

variable {name : String} {b : Builder α σ}

theorem keeps_made {x : Build α σ β} [hx : Stays (s.Within k) x] : Keeps (s.Made name b k) x :=
  fun b' hb a b'' h => hb.within (hx.keeps b' b' (Sight.Still.refl b').within a b'' h)

theorem layer_made : Gets (s.Made name b k) (layer k : Build α σ Layer) fun l => l.name = name := by
  intro b' hb l b'' h
  cases h
  exact ⟨hb, hb.named⟩

theorem newLayer_made : Triple (· = b) (newLayer : Build α σ Nat) fun k => s.Made "" b k := by
  rintro _ rfl k b' h
  cases h
  exact ⟨.of_graph rfl, by simp, by simp [layerAt]⟩

theorem setName_made (name' : String) : Triple (s.Made name b k) (setName k name' : Build α σ Unit)
    fun _ => s.Made name' b k := by
  refine .modify fun b' h => ⟨h.toCalm.trans (.of_graph rfl), (Array.size_modify ..).symm ▸ h.inside, ?_⟩
  rw [layerAt_edit, if_pos ⟨rfl, h.inside⟩]

end

end NetBridge.Source
