/-!
# Tables

A table maps names to values and remembers the order in which the names came in. Writing to a name
that is already there keeps its place (`find?_insert`, `keys_insert`).
-/

namespace NetBridge

universe u v

structure Table (β : Type u) where
  entries : List (String × β) := []
  deriving Repr

namespace Table

variable {β : Type u} {γ : Type v}

instance : EmptyCollection (Table β) := ⟨⟨[]⟩⟩

instance : Inhabited (Table β) := ⟨∅⟩

def findIn (k : String) : List (String × β) → Option β
  | [] => none
  | (k', b) :: r => if k' = k then some b else findIn k r

def insertIn (k : String) (b : β) : List (String × β) → List (String × β)
  | [] => [(k, b)]
  | (k', b') :: r => if k' = k then (k, b) :: r else (k', b') :: insertIn k b r

variable (t : Table β)

def find? (k : String) : Option β := findIn k t.entries

def findD (k : String) (d : β) : β := (t.find? k).getD d

def contains (k : String) : Bool := (t.find? k).isSome

def keys : List String := t.entries.map (·.1)

def values : List β := t.entries.map (·.2)

def size : Nat := t.entries.length

def isEmpty : Bool := t.entries.isEmpty

def insert (k : String) (b : β) : Table β := ⟨insertIn k b t.entries⟩

def erase (k : String) : Table β := ⟨t.entries.filter fun e => e.1 ≠ k⟩

def modify (k : String) (f : β → β) : Table β :=
  ⟨t.entries.map fun e => if e.1 = k then (e.1, f e.2) else e⟩

def filter (p : String → β → Bool) : Table β := ⟨t.entries.filter fun e => p e.1 e.2⟩

def map (f : String → β → γ) : Table γ := ⟨t.entries.map fun e => (e.1, f e.1 e.2)⟩

def insertAll (es : List (String × β)) : Table β :=
  es.foldl (fun t e => t.insert e.1 e.2) t

def ofList (es : List (String × β)) : Table β := insertAll ∅ es

def get (t : Table β) (k : String) (f : ε) : Except ε β :=
  match t.find? k with
  | some b => .ok b
  | none => .error f

theorem findIn_insertIn (k k' : String) (b : β) (es : List (String × β)) :
    findIn k' (insertIn k b es) = if k = k' then some b else findIn k' es := by
  induction es with
  | nil => simp [insertIn, findIn]
  | cons e r ih =>
    obtain ⟨n, c⟩ := e
    by_cases h : n = k
    · subst h; by_cases hk : n = k' <;> simp [insertIn, findIn, hk]
    · by_cases hk : n = k'
      · subst hk; simp [insertIn, findIn, h, Ne.symm h]
      · simp [insertIn, findIn, h, hk, ih]

@[simp] theorem find?_insert (t : Table β) (k k' : String) (b : β) :
    (t.insert k b).find? k' = if k = k' then some b else t.find? k' :=
  findIn_insertIn k k' b t.entries

@[simp] theorem find?_empty (k : String) : (∅ : Table β).find? k = none := rfl

theorem keys_insertIn (k : String) (b : β) (es : List (String × β)) :
    (insertIn k b es).map (·.1) =
      if k ∈ es.map (·.1) then es.map (·.1) else es.map (·.1) ++ [k] := by
  induction es with
  | nil => simp [insertIn]
  | cons e r ih =>
    obtain ⟨n, c⟩ := e
    by_cases h : n = k
    · simp [insertIn, h]
    · simp only [insertIn, h, ite_false, List.map_cons, ih, List.mem_cons, Ne.symm h, false_or]
      split <;> simp

theorem keys_insert (t : Table β) (k : String) (b : β) :
    (t.insert k b).keys = if k ∈ t.keys then t.keys else t.keys ++ [k] :=
  keys_insertIn k b t.entries

theorem findIn_isSome_iff (k : String) (es : List (String × β)) :
    (findIn k es).isSome = true ↔ k ∈ es.map (·.1) := by
  induction es with
  | nil => simp [findIn]
  | cons e r ih =>
    obtain ⟨n, c⟩ := e
    by_cases h : n = k
    · simp [findIn, h]
    · simp [findIn, h, ih, Ne.symm h]

theorem contains_iff (t : Table β) (k : String) : t.contains k = true ↔ k ∈ t.keys :=
  findIn_isSome_iff k t.entries

end Table

end NetBridge
