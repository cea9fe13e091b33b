import NetBridge.Proofs.GraphEdges

/-!
# Marks left by walks

A walk that marks covers every vertex it comes to at once. When the path leaves the graph, the marks made until then
stay (`follow_marks`).
-/

namespace NetBridge.Graph

variable {α : Type}

/-- The vertices that a walk comes to, up to where the path leaves the graph. -/
def trail (g : Graph α) (d : Direction) : Vertex α → List Int → List String
  | _, [] => []
  | v, i :: path =>
    match step d v i with
    | .ok (some n) => (g.vertices.find? n).elim [] fun w => n :: trail g d w path
    | _ => []

def visited (g : Graph α) (d : Direction) (n : String) (path : List Int) : List String :=
  (g.vertices.find? n).elim [] fun v => g.trail d v path

def cover (g : Graph α) (ns : List String) : Graph α :=
  { g with vertices := g.vertices.map fun m v => if m ∈ ns then { v with covered := true } else v }

def covered? (g : Graph α) (m : String) : Option Bool := (g.vertices.find? m).map (·.covered)

variable {g : Graph α} {d : Direction} {v v' w : Vertex α} {path : List Int} {n : String}

section
variable (g) (ns ms : List String)

theorem find?_cover (m : String) : (g.cover ns).vertices.find? m =
    (g.vertices.find? m).map fun v => if m ∈ ns then { v with covered := true } else v :=
  Table.find?_map ..

theorem cover_nil : g.cover [] = g := by
  simp [cover, Table.map]

theorem cover_cover : (g.cover ns).cover ms = g.cover (ns ++ ms) := by
  simp only [cover, Table.map, List.map_map]
  congr 3
  funext e
  by_cases hn : e.1 ∈ ns <;> by_cases hm : e.1 ∈ ms <;> simp [hn, hm]

theorem modify_eq_cover (n : String) : (g.modify n fun v => { v with covered := true }) = g.cover [n] := by
  simp only [modify, Table.modify_eq_map, cover, List.mem_singleton]

theorem covered?_cover (m : String) :
    (g.cover ns).covered? m = if m ∈ ns then (g.covered? m).map fun _ => true else g.covered? m := by
  rw [covered?, covered?, find?_cover]
  by_cases hm : m ∈ ns <;> cases g.vertices.find? m <;> simp [hm]

end

/-! ## Walks -/

theorem step_congr (h : d.next v' = d.next v) (i : Int) : step d v' i = step d v i := by
  rw [step, step, h]

theorem next_cover (d : Direction) (c : Prop) [Decidable c] (v : Vertex α) :
    d.next (if c then { v with covered := true } else v) = d.next v := by
  cases d <;> split <;> rfl

theorem trail_cover (ns : List String) (h : d.next v' = d.next v) :
    (g.cover ns).trail d v' path = g.trail d v path := by
  induction path generalizing v v' with
  | nil => rfl
  | cons i path ih =>
    rw [trail, trail, step_congr h]
    split
    · rename_i n _
      rw [find?_cover]
      cases g.vertices.find? n with
      | none => rfl
      | some w => exact congrArg (n :: ·) (ih (next_cover d _ w))
    · rfl

variable {r : Option (Vertex α)} {m : String}

theorem walk_marks (h : (walk d true g v path).1 = .ok r) : (walk d true g v path).2 = g.cover (g.trail d v path) ∧
      (r.isSome = true → (g.trail d v path).length = path.length) := by
  induction path generalizing g v with
  | nil => exact ⟨g.cover_nil.symm, fun _ => rfl⟩
  | cons i path ih =>
    rw [walk] at h ⊢
    rw [trail]
    cases hstep : step d v i with
    | error f => simp [hstep] at h
    | ok o =>
      cases o with
      | none =>
        obtain rfl : none = r := by simpa [hstep] using h
        exact ⟨g.cover_nil.symm, by simp⟩
      | some n =>
        simp only [hstep, ite_true, modify_eq_cover, vertex, Table.get, find?_cover] at h ⊢
        cases hn : g.vertices.find? n with
        | none => simp [hn] at h
        | some w =>
          simp only [hn, Option.map_some, List.mem_singleton] at h ⊢
          obtain ⟨hgraph, hlength⟩ := ih h
          -- the walk goes on in the graph with the new mark, along the same vertices
          rw [trail_cover [n] (v := w) (by cases d <;> rfl)] at hgraph hlength
          exact ⟨by rw [hgraph, cover_cover]; rfl, fun hr => congrArg (· + 1) (hlength hr)⟩

theorem follow_eq_ok (h : (g.follow d n path true).1 = .ok r) :
    (g.follow d n path true).2 = g.cover (g.visited d n path) ∧
      (r.isSome = true → (g.visited d n path).length = path.length) := by
  unfold follow vertex Table.get at h ⊢
  unfold visited
  cases hn : g.vertices.find? n with
  | none => simp [hn] at h
  | some v =>
    rw [hn] at h
    exact walk_marks h

theorem trail_found (h : m ∈ g.trail d v path) : ∃ u, g.vertices.find? m = some u := by
  induction path generalizing v with
  | nil => cases h
  | cons i path ih =>
    rw [trail] at h
    split at h
    · rename_i n _
      cases hn : g.vertices.find? n with
      | none => simp [hn] at h
      | some w =>
        rw [hn, Option.elim_some, List.mem_cons] at h
        rcases h with rfl | h
        · exact ⟨w, hn⟩
        · exact ih h
    · cases h

theorem visited_found (h : m ∈ g.visited d n path) : ∃ u, g.vertices.find? m = some u := by
  unfold visited at h
  cases hn : g.vertices.find? n with
  | none => simp [hn] at h
  | some v =>
    rw [hn] at h
    exact trail_found h

/-- **Marks of a walk.** A walk to a vertex covers the vertices behind its start, one for each step of the path, and
changes nothing else. A walk that leaves the graph covers what it has come to, so it leaves all marks as they were
exactly if these vertices were covered before. -/
theorem follow_marks (g : Graph α) (d : Direction) (n : String) (path : List Int) :
    (∀ w, (g.follow d n path true).1 = .ok (some w) →
      (g.follow d n path true).2 = g.cover (g.visited d n path) ∧ (g.visited d n path).length = path.length ∧
        ∀ m, (g.follow d n path true).2.covered? m =
          if m ∈ g.visited d n path then some true else g.covered? m) ∧
    ((g.follow d n path true).1 = .ok none →
      ((∀ m, (g.follow d n path true).2.covered? m = g.covered? m) ↔
        ∀ m ∈ g.visited d n path, g.covered? m = some true)) := by
  have hcovered (m : String) :
      (g.cover (g.visited d n path)).covered? m = if m ∈ g.visited d n path then some true else g.covered? m := by
    rw [covered?_cover]
    split
    · rename_i hm
      obtain ⟨u, hu⟩ := visited_found hm
      rw [covered?, hu]
      rfl
    · rfl
  refine ⟨fun w h => ?_, fun h => ?_⟩
  · obtain ⟨hgraph, hlength⟩ := follow_eq_ok h
    exact ⟨hgraph, hlength rfl, fun m => by rw [hgraph, hcovered]⟩
  · rw [(follow_eq_ok h).1]
    refine forall_congr' fun m => ?_
    rw [hcovered]
    by_cases hm : m ∈ g.visited d n path
    · simp [eq_comm]
    · simp [hm]

/-! ## Marks that stay -/

def chain : Graph Unit :=
  ((((({} : Graph Unit).add "x" ()).add "y" ()).add "z" ()).connectAll [("x", "y"), ("y", "z")]).1

theorem follow_marks_chain : (chain.follow .up "z" [0, -1] true).2 = chain.cover ["y", "x"] ∧
    ∀ m, (chain.follow .up "z" [0, -1] true).2.covered? m = if m ∈ ["y", "x"] then some true else chain.covered? m := by
  obtain ⟨hgraph, -, hcovered⟩ := (follow_marks chain .up "z" [0, -1]).1 _ rfl
  exact ⟨hgraph, hcovered⟩

/-- The path leaves the graph behind its first step, and the vertex there stays covered. -/
theorem mark_stays : (chain.follow .up "z" [0, 1] true).1 = .ok none ∧
    (chain.follow .up "z" [0, 1] true).2.covered? "y" = some true ∧ chain.covered? "y" = some false :=
  ⟨rfl, rfl, rfl⟩

end NetBridge.Graph
