import NetBridge.Source.MxNet
import NetBridge.Code.Emitter

/-!
# Whole numbers in text

A whole number that is written out reads back as itself, and so does a list of them with commas between
(`wholesOf_joined`). The text of a tuple does too, unless it holds a single number (`wholesOf_intTuple`).
-/

namespace NetBridge

open List Text

variable {sep : Char} {cs : List Char}

namespace Text

theorem splitChars_of_not_mem (h : sep ∉ cs) : splitChars sep cs = [cs] := by
  induction cs with
  | nil => rfl
  | cons c cs ih =>
    rw [mem_cons, not_or] at h
    have hc : c ≠ sep := fun e => h.1 e.symm
    simp only [splitChars, ih h.2, hc, ite_false]

theorem splitChars_ne_nil (sep : Char) (cs : List Char) : splitChars sep cs ≠ [] := by
  cases cs with
  | nil => simp [splitChars]
  | cons c cs =>
    rw [splitChars]
    split
    · simp
    · split <;> simp

theorem splitChars_append (h : sep ∉ cs) (rest : List Char) :
    splitChars sep (cs ++ sep :: rest) = cs :: splitChars sep rest := by
  induction cs with
  | nil =>
    rw [nil_append, splitChars]
    cases hr : splitChars sep rest with
    | nil => exact absurd hr (splitChars_ne_nil _ _)
    | cons part parts => simp only [ite_true]
  | cons c cs ih =>
    rw [mem_cons, not_or] at h
    have hc : c ≠ sep := fun e => h.1 e.symm
    rw [cons_append, splitChars, ih h.2]
    simp only [hc, ite_false]

variable {parts : List String}

theorem split_join (hne : parts ≠ []) (h : ∀ p ∈ parts, sep ∉ p.toList) :
    split sep (join (String.singleton sep) parts) = parts := by
  rw [split, join, String.toList_intercalate, String.toList_singleton]
  induction parts with
  | nil => exact absurd rfl hne
  | cons p ps ih =>
    have hp : sep ∉ p.toList := h p (.head _)
    cases ps with
    | nil => simp [splitChars_of_not_mem hp]
    | cons q qs =>
      have hrest := ih (by simp) fun r hr => h r (.tail _ hr)
      rw [map_cons, map_cons, intercalate_cons_cons, append_assoc, singleton_append,
        splitChars_append hp, ← map_cons, map_cons, hrest, String.ofList_toList]

theorem join_append (sep gap p : String) (ps : List String) :
    join (sep ++ gap) (p :: ps) = join sep (p :: ps.map (gap ++ ·)) := by
  have hfirst (q : String) (qs : List String) : gap ++ join sep (q :: qs) = join sep ((gap ++ q) :: qs) := by
    cases qs <;> simp [join, String.intercalate_cons_cons, String.append_assoc]
  induction ps generalizing p with
  | nil => simp [join]
  | cons q qs ih =>
    have hrest := ih q
    unfold join at *
    rw [String.intercalate_cons_cons, hrest, map_cons, String.intercalate_cons_cons, ← hfirst]
    simp only [String.append_assoc]

theorem mem_join {sep : String} {c : Char} (h : c ∈ (join sep parts).toList) :
    c ∈ sep.toList ∨ ∃ p ∈ parts, c ∈ p.toList := by
  rw [join, String.toList_intercalate] at h
  induction parts with
  | nil => simp at h
  | cons p ps ih =>
    cases ps with
    | nil => exact .inr ⟨p, mem_singleton_self p, by simpa using h⟩
    | cons q qs =>
      rw [map_cons, map_cons, intercalate_cons_cons, mem_append, mem_append] at h
      rcases h with (h | h) | h
      · exact .inr ⟨p, .head _, h⟩
      · exact .inl h
      · rcases ih h with hs | ⟨r, hr, hc⟩
        · exact .inl hs
        · exact .inr ⟨r, .tail _ hr, hc⟩

theorem trimBy_of_none {p : Char → Bool} (h : ∀ c ∈ cs, p c = false) : trimBy p cs = cs := by
  have hdrop : ∀ {l : List Char}, (∀ c ∈ l, p c = false) → l.dropWhile p = l := by
    intro l hl
    cases l with
    | nil => rfl
    | cons c l => rw [dropWhile_cons_of_neg (by simp [hl c (.head _)])]
  rw [trimBy, hdrop h, hdrop fun c hc => h c (mem_reverse.mp hc), reverse_reverse]

end Text

namespace Decimal

theorem digitsFrom_eq (h : ∀ c ∈ cs, c.isDigit = true) (acc n : Nat) :
    digitsFrom cs acc n = (Nat.ofDigitChars 10 cs acc, n + cs.length, []) := by
  induction cs generalizing acc n with
  | nil => rw [digitsFrom]; rfl
  | cons c cs ih =>
    have hc : c.isDigit = true := h c (.head _)
    have hstep : Nat.ofDigitChars 10 (c :: cs) acc = Nat.ofDigitChars 10 cs (acc * 10 + (c.toNat - 48)) := by
      rw [Nat.ofDigitChars_eq_foldl, foldl_cons, Nat.mul_comm 10 acc]
      rfl
    rw [digitsFrom.eq_def]
    simp only [hc, ite_true]
    rw [ih (fun d hd => h d (.tail _ hd)), hstep, length_cons, Nat.add_right_comm, Nat.add_assoc]

theorem digitsFrom_toDigits (n : Nat) :
    digitsFrom (Nat.toDigits 10 n) 0 0 = (n, (Nat.toDigits 10 n).length, []) := by
  rw [digitsFrom_eq fun c hc => Nat.isDigit_of_mem_toDigits (by decide) (by decide) hc,
    Nat.ofDigitChars_ten_toDigits, Nat.zero_add]

variable {c : Char}

theorem isBlank_of_isDigit (h : c.isDigit = true) : isBlank c = false := by
  have hc : 48 ≤ c.toNat ∧ c.toNat ≤ 57 := by
    simp only [Char.isDigit, Bool.and_eq_true, decide_eq_true_eq] at h
    exact h
  simp only [isBlank, Bool.or_eq_false_iff, Bool.and_eq_false_iff, decide_eq_false_iff_not, beq_eq_false_iff_ne]
  omega

/-- The characters of a whole number: digits, behind a minus if it is negative. -/
theorem toList_toString (n : Int) :
    (toString n).toList = (if 0 ≤ n then [] else ['-']) ++ Nat.toDigits 10 n.natAbs := by
  rw [Int.toString_eq_repr, Int.repr_eq_if]
  by_cases hn : 0 ≤ n
  · have habs : n.toNat = n.natAbs := by omega
    simp only [hn, ite_true, Nat.repr_eq_ofList_toDigits, String.toList_ofList, nil_append, habs]
  · have habs : (-n).toNat = n.natAbs := by omega
    simp only [hn, ite_false, String.toList_append, Nat.repr_eq_ofList_toDigits, String.toList_ofList, habs]
    rfl

theorem mem_toString {n : Int} (h : c ∈ (toString n).toList) : c = '-' ∨ c.isDigit = true := by
  rw [toList_toString, mem_append] at h
  rcases h with h | h
  · split at h
    · cases h
    · exact .inl (mem_singleton.mp h)
  · exact .inr (Nat.isDigit_of_mem_toDigits (by decide) (by decide) h)

theorem signFrom_digits (h : ∀ c ∈ cs, c.isDigit = true) : signFrom cs = (false, cs) := by
  cases cs with
  | nil => rfl
  | cons c cs =>
    have hc : c.isDigit = true := h c (.head _)
    have hminus : c ≠ '-' := fun e => by simp [e] at hc
    have hplus : c ≠ '+' := fun e => by simp [e] at hc
    unfold signFrom
    split
    · rename_i e; exact absurd (cons.inj e).1 hminus
    · rename_i e; exact absurd (cons.inj e).1 hplus
    · rfl

theorem readInt?_toString (n : Int) : readInt? (toString n) = some n := by
  have hblank : ∀ c ∈ (toString n).toList, isBlank c = false := by
    intro c hc
    rcases mem_toString hc with rfl | hd
    · decide
    · exact isBlank_of_isDigit hd
  have hdigits : ∀ c ∈ Nat.toDigits 10 n.natAbs, c.isDigit = true := fun c hc =>
    Nat.isDigit_of_mem_toDigits (by decide) (by decide) hc
  have hlen : (Nat.toDigits 10 n.natAbs).length ≠ 0 := Nat.pos_iff_ne_zero.mp Nat.length_toDigits_pos
  unfold readInt?
  rw [trimBy_of_none hblank, toList_toString]
  by_cases hn : 0 ≤ n
  · rw [if_pos hn, nil_append, signFrom_digits hdigits]
    simp only [digitsFrom_toDigits, hlen]
    exact congrArg some (Int.natAbs_of_nonneg hn)
  · rw [if_neg hn, singleton_append]
    simp only [signFrom, digitsFrom_toDigits, hlen, ite_true]
    exact congrArg some (by omega)

end Decimal

namespace Source.MxNet

/-- Brackets are left out of the text of numbers. -/
def bare (s : String) : List Char := s.toList.filter fun c => c != '(' && c != ')'

theorem bare_append (s t : String) : bare (s ++ t) = bare s ++ bare t := by simp [bare]

/-- Numbers are read from what stands between the commas. -/
theorem wholesOf_parts {s : String} {parts : List String} (hne : parts ≠ [] ∧ parts ≠ [""])
    (hparts : ∀ p ∈ parts, ',' ∉ p.toList) (hs : bare s = (join "," parts).toList) :
    wholesOf (.text s) = parts.mapM fun p => orFault Fault.value (Decimal.readInt? p) := by
  have hsplit : split ',' (join "," parts) = parts := split_join hne.1 hparts
  have hfull : (join "," parts).isEmpty = false := by
    refine Bool.eq_false_iff.mpr fun h => hne.2 ?_
    rw [← hsplit, String.isEmpty_iff.mp h]
    rfl
  rw [bare] at hs
  simp only [wholesOf, hs, String.ofList_toList, hfull, hsplit]
  rfl

theorem toString_plain {n : Int} {c : Char} (h : c ∈ (toString n).toList) :
    c ≠ ',' ∧ (c != '(' && c != ')') = true := by
  rcases Decimal.mem_toString h with rfl | hd
  · decide
  · have hne {d : Char} (hd' : d.isDigit = false) : c ≠ d := fun e => by simp [e, hd'] at hd
    simp [hne (d := ',') rfl, hne (d := '(') rfl, hne (d := ')') rfl]

theorem toString_ne_empty (n : Int) : toString n ≠ "" := by
  intro h
  have hdigits := congrArg String.toList h
  rw [Decimal.toList_toString] at hdigits
  exact Nat.toDigits_ne_nil (append_eq_nil_iff.mp hdigits).2

section
variable {gap : String} (hgap : ∀ c ∈ gap.toList, c = ' ')
include hgap

theorem mapM_readInt (ns : List Int) :
    (ns.map fun n => gap ++ toString n).mapM (fun p => orFault Fault.value (Decimal.readInt? p)) = .ok ns := by
  have hread (n : Int) : Decimal.readInt? (gap ++ toString n) = some n := by
    have hdrop : (gap ++ toString n).toList.dropWhile isBlank = (toString n).toList.dropWhile isBlank := by
      rw [String.toList_append, dropWhile_append_of_pos fun c hc => by rw [hgap c hc]; rfl]
    rw [Decimal.readInt?, trimBy, hdrop]
    exact Decimal.readInt?_toString n
  induction ns with
  | nil => rfl
  | cons n ns ih =>
    rw [map_cons, mapM_cons, ih, hread]
    rfl

/-- Blanks behind the commas are passed over. -/
theorem wholesOf_spaced {s : String} {ns : List Int} (hne : ns ≠ [])
    (hs : bare s = bare (Code.joined ("," ++ gap) ns)) : wholesOf (.text s) = .ok ns := by
  obtain ⟨n, ns, rfl⟩ := exists_cons_of_ne_nil hne
  have hplain : ∀ c ∈ (Code.joined ("," ++ gap) (n :: ns)).toList, (c != '(' && c != ')') = true := by
    intro c hc
    rcases mem_join hc with h | ⟨_, hp, h⟩
    · rw [String.toList_append, mem_append] at h
      rcases h with h | h
      · rw [mem_singleton.mp h]
        decide
      · rw [hgap c h]
        decide
    · obtain ⟨m, -, rfl⟩ := mem_map.mp hp
      exact (toString_plain h).2
  have hjoin : Code.joined ("," ++ gap) (n :: ns) =
      join "," (toString n :: ns.map fun m => gap ++ toString m) := by
    rw [Code.joined, map_cons, join_append, map_map]
    rfl
  rw [bare, bare, filter_eq_self.mpr hplain, hjoin] at hs
  rw [wholesOf_parts ⟨by simp, fun e => toString_ne_empty n (cons.inj e).1⟩ ?_ hs, mapM_cons,
    mapM_readInt hgap, Decimal.readInt?_toString]
  · rfl
  · intro p hp hc
    rcases mem_cons.mp hp with rfl | hp
    · exact (toString_plain hc).1 rfl
    · obtain ⟨m, -, rfl⟩ := mem_map.mp hp
      rw [String.toList_append, mem_append] at hc
      rcases hc with hc | hc
      · exact absurd (hgap _ hc) (by decide)
      · exact (toString_plain hc).1 rfl

end

theorem wholesOf_joined {ns : List Int} (hne : ns ≠ []) : wholesOf (.text (Code.joined "," ns)) = .ok ns :=
  wholesOf_spaced (show ∀ c ∈ "".toList, c = ' ' by simp) hne rfl

/-- The text of a tuple reads back, unless the tuple has one number and a comma behind it. -/
theorem wholesOf_intTuple (ns : List Int) :
    wholesOf (.text (intTuple ns)) = if ns.length = 1 then .error Fault.value else .ok ns := by
  rcases ns with - | ⟨n, - | ⟨m, ns⟩⟩
  · rfl
  · have hs : bare ("(" ++ toString n ++ ",)") = (join "," [toString n, ""]).toList := by
      have hplain : bare (toString n) = (toString n).toList := filter_eq_self.mpr fun c hc => (toString_plain hc).2
      rw [bare_append, bare_append, hplain, join, String.intercalate_cons_cons, String.intercalate_singleton,
        String.append_empty, String.toList_append]
      rfl
    have hparts : ∀ p ∈ [toString n, ""], ',' ∉ p.toList := by
      simpa using fun h => (toString_plain h).1 rfl
    rw [intTuple, map_singleton, tupleText, wholesOf_parts ⟨by simp, by simp⟩ hparts hs, mapM_cons,
      Decimal.readInt?_toString]
    rfl
  · rw [if_neg (by simp)]
    refine wholesOf_spaced (show ∀ c ∈ " ".toList, c = ' ' by simp) (by simp) ?_
    have htuple : intTuple (n :: m :: ns) = "(" ++ Code.joined ("," ++ " ") (n :: m :: ns) ++ ")" := rfl
    rw [htuple, bare_append, bare_append]
    exact append_nil _

end Source.MxNet

end NetBridge
