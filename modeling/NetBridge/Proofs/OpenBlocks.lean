import NetBridge.Prototxt.Plain

/-!
# Descriptions that are read to the end

What a line says depends on the place where it stands (`understood`), and what it does on what it says (`Reader.obey`).
Behind the last line nothing closes an open block any more, and the reader never ends (`parse_ends_iff`).
-/

namespace NetBridge.Prototxt.Plain

open List

def textLines (text : String) : List (List Char) := Text.splitChars '\n' (Text.unifyLineEnds text.toList)

/-! ## What lines say and do -/

/-- What a line says; nothing for the end of a block. The place of the line tells if it is the first of a block, or
stands in none. -/
def understood (place : Option Bool) (cs : List Char) : Option Line :=
  let cs := Text.trimBy Text.isBlank cs
  let cs := if place = some true then cs else uncommented cs
  if place.isSome ∧ cs = ['\x7d'] then none else some (Line.ofChars cs)

def Reader.place (r : Reader) : Option Bool := r.frames.head?.map (·.fresh)

def Reader.settle (r : Reader) : Reader := { r with frames := r.frames.modifyHead ({ · with fresh := false }) }

def Reader.put (r : Reader) (key value : String) : Reader :=
  match r.frames with
  | [] => { r with props := addValue r.props key value }
  | f :: rest => { r with frames := { f with entries := addValue f.entries key value } :: rest }

def Reader.obey (r : Reader) : Option Line → Except Fault Reader
  | none => .ok (r.frames.head?.elim r fun f => r.close f r.frames.tail)
  | some (.entry key value) => .ok (r.put key value)
  | some (.opening key) => .ok { r with frames := { key } :: r.frames }
  | some .malformed => .error Fault.value
  | some .nothing => .ok r

def Reader.take (r : Reader) (l : List Char) : Except Fault Reader := r.settle.obey (understood r.place l)

def Reader.behind (r : Reader) (ls : List (List Char)) : Reader := { r with ahead := ls }

theorem Reader.step_line (r : Reader) (l : List Char) (ls : List (List Char)) :
    (r.behind (l :: ls)).step = .ofExcept ((r.behind ls).take l) := by
  obtain ⟨ahead, frames, props, layers⟩ := r
  cases frames with
  | nil =>
    simp only [step, behind, outside, take, understood, place, head?_nil, Option.map_none,
      reduceCtorEq, ite_false]
    cases Line.ofChars (uncommented (Text.trimBy Text.isBlank l)) <;> rfl
  | cons f rest =>
    obtain ⟨key, entries, fresh⟩ := f
    simp only [step, behind, inBlock, take, understood, place, head?_cons, Option.map_some,
      Option.isSome_some, Option.some.injEq, true_and]
    generalize (if fresh = true then Text.trimBy Text.isBlank l else uncommented (Text.trimBy Text.isBlank l)) = cs
    by_cases hcs : cs = ['\x7d']
    · rw [if_pos hcs, if_pos hcs]
      rfl
    · rw [if_neg hcs, if_neg hcs]
      cases Line.ofChars cs <;> rfl

/-! ## Open blocks -/

/-- The open blocks behind a line, the innermost first, from those before it: has a block no line yet? Nothing for a
line that is refused. -/
def openAfter (blocks : List Bool) (l : List Char) : Option (List Bool) :=
  match understood blocks.head? l with
  | none => some blocks.tail
  | some (.opening _) => some (true :: blocks.modifyHead fun _ => false)
  | some .malformed => none
  | _ => some (blocks.modifyHead fun _ => false)

/-- The number of blocks that are open at the end of a text; none after a malformed line, which ends the reading. -/
def openBlocks (text : String) : Nat := ((textLines text).foldlM openAfter []).elim 0 List.length

def Reader.blocks (r : Reader) : List Bool := r.frames.map (·.fresh)

-- a line sees neither the lines behind it nor more of the open blocks than `openAfter` does
theorem Reader.take_spec (r : Reader) (l : List Char) (ls : List (List Char)) :
    (r.behind ls).take l = (r.take l).map (·.behind ls) ∧
      (r.take l).toOption.map (·.blocks) = openAfter r.blocks l := by
  obtain ⟨ahead, frames, props, layers⟩ := r
  simp only [take, openAfter, blocks, behind, settle, place, head?_map]
  cases understood (frames.head?.map (·.fresh)) l with
  | none =>
    rcases frames with _ | ⟨f, _ | ⟨g, rest⟩⟩
    · exact ⟨rfl, rfl⟩
    · simp only [obey, close, modifyHead_cons, head?_cons, Option.elim_some, tail_cons]
      split <;> exact ⟨rfl, rfl⟩
    · exact ⟨rfl, rfl⟩
  | some line => cases line <;> cases frames <;> exact ⟨rfl, rfl⟩

variable {r : Reader}

theorem run_lines (r : Reader) (ls : List (List Char)) (n : Nat) :
    (Progress.reading (r.behind ls)).run (ls.length + n) =
    (Progress.ofExcept ((ls.foldlM Reader.take r).map (·.behind []))).run n := by
  induction ls generalizing r with
  | nil => rw [length_nil, Nat.zero_add]; rfl
  | cons l ls ih =>
    rw [length_cons, Nat.succ_add, Progress.run, Reader.step_line, foldlM_cons, (r.take_spec l ls).1]
    cases r.take l with
    | error f => cases n <;> cases ls <;> rfl
    | ok r' => exact ih r'

theorem blocks_takeAll (r : Reader) (ls : List (List Char)) :
    (ls.foldlM Reader.take r).toOption.map (·.blocks) = ls.foldlM openAfter r.blocks := by
  induction ls generalizing r with
  | nil => rfl
  | cons l ls ih =>
    rw [foldlM_cons, foldlM_cons, ← (r.take_spec l []).2]
    cases r.take l with
    | error f => rfl
    | ok r' => exact ih r'

/-! ## The end of the reading -/

def readLines (text : String) : Except Fault Reader := (textLines text).foldlM Reader.take { ahead := [] }

theorem run_text (text : String) (n : Nat) : (Progress.reading (.start text)).run ((textLines text).length + n) =
    (Progress.ofExcept ((readLines text).map (·.behind []))).run n := run_lines { ahead := [] } (textLines text) n

variable {text : String}

theorem parse_of_closed (h : readLines text = .ok r) (hr : r.frames = []) : parse text = .finished r.result := by
  have hparse : parse text = (Progress.reading (r.behind [])).run 1 := (run_text text 1).trans (by rw [h]; rfl)
  obtain ⟨ahead, frames, props, layers⟩ := r
  subst hr
  exact hparse

theorem Reader.step_end (h : r.frames ≠ []) : (r.behind []).step = .reading (r.settle.behind []) := by
  obtain ⟨ahead, _ | ⟨⟨key, entries, _ | _⟩, rest⟩, props, layers⟩ := r
  · exact absurd rfl h
  · rfl
  · rfl

def Progress.isReading : Progress → Bool
  | .reading _ => true
  | _ => false

theorem Reader.isReading_run (n : Nat) (h : r.frames ≠ []) :
    ((Progress.reading (r.behind [])).run n).isReading = true := by
  induction n generalizing r with
  | zero => rfl
  | succ n ih =>
    rw [Progress.run, step_end h]
    exact ih (by simpa [settle] using h)

theorem isReading_run_of_le {p : Progress} {m n : Nat} (hmn : m ≤ n) (h : (p.run n).isReading = true) :
    (p.run m).isReading = true := by
  induction m generalizing p n with
  | zero => cases p with
    | reading r => rfl
    | finished item => cases n <;> cases h
    | failed f => cases n <;> cases h
  | succ m ih =>
    obtain ⟨n, rfl⟩ := Nat.exists_eq_add_of_le' hmn
    cases p with
    | reading r => exact ih (Nat.le_add_left m n) h
    | finished item => cases h
    | failed f => cases h

theorem openBlocks_eq (text : String) : openBlocks text = (readLines text).toOption.elim 0 (·.frames.length) := by
  have hblocks : (readLines text).toOption.map (·.blocks) = (textLines text).foldlM openAfter [] := blocks_takeAll ..
  rw [openBlocks, ← hblocks]
  cases readLines text with
  | error f => rfl
  | ok r => exact length_map _

theorem endless (h : openBlocks text ≠ 0) (n : Nat) : ((Progress.reading (.start text)).run n).isReading = true := by
  rw [openBlocks_eq] at h
  refine isReading_run_of_le (Nat.le_add_left n (textLines text).length) ?_
  rw [run_text]
  cases hr : readLines text with
  | error f => simp [hr, Except.toOption] at h
  | ok r => exact r.isReading_run n (by simpa [hr, Except.toOption] using h)

theorem parse_ends (h : openBlocks text = 0) : (parse text).isReading = false := by
  rw [openBlocks_eq] at h
  cases hr : readLines text with
  | error f =>
    have hparse := run_text text 1
    rw [hr] at hparse
    exact congrArg Progress.isReading hparse
  | ok r =>
    rw [parse_of_closed hr (by simpa [hr, Except.toOption] using h)]
    rfl

/-- **Texts that are read to the end.** The reader ends on a text, with a result or a fault, exactly if no block is open
behind its last line; the steps of `parse` are then enough. -/
theorem parse_ends_iff (text : String) :
    ((∃ n, ((Progress.reading (.start text)).run n).isReading = false) ↔ openBlocks text = 0) ∧
      ((parse text).isReading = false ↔ openBlocks text = 0) := by
  have hends (n : Nat) (hn : ((Progress.reading (.start text)).run n).isReading = false) : openBlocks text = 0 := by
    refine Decidable.byContradiction fun hopen => ?_
    rw [endless hopen] at hn
    cases hn
  exact ⟨⟨fun ⟨n, hn⟩ => hends n hn, fun h => ⟨_, parse_ends h⟩⟩, hends _, parse_ends⟩

/-- A layer that is not closed is read for ever. -/
theorem open_layer_endless : openBlocks "layer \x7b\n" = 1 ∧
    ∀ n, ((Progress.reading (.start "layer \x7b\n")).run n).isReading = true :=
  ⟨by decide +kernel, endless (by decide +kernel)⟩

end NetBridge.Prototxt.Plain
