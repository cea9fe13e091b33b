import NetBridge.Text.Basic

/-!
# Words in names

A name is cut into words, and the words are joined with a capital each. Cutting the result again finds the same words,
unless a capital behind a letter does not look like the start of a word, or a letter without a letter before it is not
in its title form (`pascal_snake_iff`). The second happens to letters whose title form is several characters long.
-/

namespace NetBridge.Text

open List

/-! ## Letters -/

namespace Run

def letters (r : Run) : List Nat := (range r.count).map (r.first + · * r.step)

def forms (r : Run) : List Nat := (range r.count).map (r.form + · * r.step)

theorem mem_of_form? {r : Run} {n m : Nat} (h : r.form? n = some m) : n ∈ r.letters ∧ m ∈ r.forms := by
  rw [form?, Option.ite_none_right_eq_some, Option.some.injEq] at h
  obtain ⟨⟨hfirst, hlast, hstep⟩, hm⟩ := h
  obtain ⟨i, hi⟩ := Nat.dvd_of_mod_eq_zero hstep
  have hlt : r.step * i < r.step * r.count := by
    rw [← hi, Nat.mul_comm r.step r.count]
    omega
  have hmem := mem_range.mpr (Nat.lt_of_mul_lt_mul_left hlt)
  rw [Nat.mul_comm] at hi
  exact ⟨mem_map.mpr ⟨i, hmem, by omega⟩, mem_map.mpr ⟨i, hmem, by omega⟩⟩

end Run

/-- The numbers of a list as the bits of one number, on which facts about a whole table are one computation. -/
def mask (ns : List Nat) : Nat := ns.foldr (fun n m => 1 <<< n ||| m) 0

theorem testBit_mask {n : Nat} {ns : List Nat} : (mask ns).testBit n = true ↔ n ∈ ns := by
  induction ns with
  | nil => simp [mask]
  | cons k ns ih =>
    have hcons : mask (k :: ns) = 1 <<< k ||| mask ns := rfl
    rw [hcons, Nat.testBit_or, Bool.or_eq_true, ih, mem_cons, Nat.one_shiftLeft, Nat.testBit_two_pow,
      decide_eq_true_eq, eq_comm]

def spanMask : Bool → List Nat → Nat
  | _, [] => 0
  | inside, k :: ks => (if inside then (1 <<< k) - 1 else 0) ||| spanMask (!inside) ks <<< k

theorem testBit_spanMask (inside : Bool) (ks : List Nat) (n : Nat) :
    (spanMask inside ks).testBit n = inSpans inside ks n := by
  induction ks generalizing inside n with
  | nil => simp [spanMask, inSpans]
  | cons k ks ih =>
    rw [spanMask, inSpans, Nat.testBit_or, Nat.testBit_shiftLeft, ih]
    by_cases h : n < k
    · cases inside <;> simp [h, Nat.one_shiftLeft, Nat.not_le.mpr h]
    · cases inside <;> simp [h, Nat.one_shiftLeft, Nat.not_lt.mp h]

theorem inSpans_of_mem {ns ks : List Nat} {inside : Bool} (h : mask ns &&& spanMask inside ks = mask ns) {n : Nat}
    (hn : n ∈ ns) : inSpans inside ks n = true := by
  rw [← testBit_mask, ← h, Nat.testBit_and, Bool.and_eq_true, testBit_spanMask] at hn
  exact hn.2

/-- The letters with a small form of one character. -/
def smallRuns : List Run := ⟨65, 97, 26, 1⟩ :: (capitals ++ otherSmall)

def titleRuns : List Run := capitals.map Run.swap ++ otherTitles

theorem small_forms_apart :
    mask (smallRuns.flatMap Run.forms) &&& mask (0x130 :: smallRuns.flatMap Run.letters) = 0 := by
  decide +kernel

theorem small_forms_cased :
    mask (smallRuns.flatMap fun r => r.letters ++ r.forms) &&& spanMask false casedSpans =
      mask (smallRuns.flatMap fun r => r.letters ++ r.forms) := by
  decide +kernel

/-- The forms are characters other than the low line. -/
theorem forms_valid {n : Nat} (h : n ∈ (smallRuns ++ titleRuns).flatMap Run.forms) : n.isValidChar ∧ n ≠ 95 := by
  have hforms : mask ((smallRuns ++ titleRuns).flatMap Run.forms) &&& spanMask true [95, 1, 0xd7a0, 0x800, 0x102000] =
      mask ((smallRuns ++ titleRuns).flatMap Run.forms) := by decide +kernel
  have hn := inSpans_of_mem hforms h
  simp only [inSpans, Bool.not_true, Bool.not_false] at hn
  unfold Nat.isValidChar
  repeat' split at hn
  all_goals first | omega | cases hn

theorem formIn_cases {runs : List Run} (hruns : runs ⊆ smallRuns ++ titleRuns) (c : Char) :
    formIn runs c = c ∨ c.toNat ∈ runs.flatMap Run.letters ∧ (formIn runs c).toNat ∈ runs.flatMap Run.forms ∧
      formIn runs c ≠ '_' := by
  rw [formIn]
  cases h : runs.findSome? (·.form? c.toNat) with
  | none => exact .inl rfl
  | some m =>
    obtain ⟨r, hr, hm⟩ := exists_of_findSome?_eq_some h
    obtain ⟨hletter, hform⟩ := r.mem_of_form? hm
    obtain ⟨hvalid, hline⟩ := forms_valid (mem_flatMap.mpr ⟨r, hruns hr, hform⟩)
    have hcode : (Char.ofNat m).toNat = m := by
      rw [Char.ofNat, dif_pos hvalid]
      rfl
    refine .inr ⟨mem_flatMap.mpr ⟨r, hr, hletter⟩, mem_flatMap.mpr ⟨r, hr, hcode.symm ▸ hform⟩, fun he => hline ?_⟩
    exact hcode.symm.trans (congrArg Char.toNat he)

theorem toNat_of_isCapital {c : Char} (h : isCapital c = true) : 65 ≤ c.toNat ∧ c.toNat ≤ 90 := by
  simp only [isCapital, Bool.and_eq_true, decide_eq_true_eq] at h
  exact h

theorem toNat_of_isSmall {c : Char} (h : isSmall c = true) : 97 ≤ c.toNat ∧ c.toNat ≤ 122 := by
  simp only [isSmall, Bool.and_eq_true, decide_eq_true_eq] at h
  exact h

theorem smallForm_cases (c : Char) :
    smallForm c = [c] ∨ c = Char.ofNat 0x130 ∨ ∃ d, smallForm c = [d] ∧ d ≠ '_' ∧
      c.toNat ∈ smallRuns.flatMap Run.letters ∧ d.toNat ∈ smallRuns.flatMap Run.forms := by
  rw [smallForm]
  split
  · by_cases h : isCapital c = true
    · have hcapitals : ∀ n ∈ range' 65 26, Char.ofNat (n + 32) ≠ '_' ∧ n ∈ smallRuns.flatMap Run.letters ∧
          (Char.ofNat (n + 32)).toNat ∈ smallRuns.flatMap Run.forms := by decide
      have := toNat_of_isCapital h
      rw [if_pos h]
      exact .inr (.inr ⟨_, rfl, hcapitals c.toNat (mem_range'_1.mpr (by omega))⟩)
    · exact .inl (by rw [if_neg h])
  · split
    next h => exact .inr (.inl (by rw [← h, Char.ofNat_toNat]))
    next =>
      have hruns : capitals ++ otherSmall ⊆ smallRuns ++ titleRuns :=
        fun r hr => mem_append_left _ (mem_cons_of_mem _ hr)
      rcases formIn_cases hruns c with h | ⟨hletter, hform, hline⟩
      · exact .inl (by rw [h])
      · exact .inr (.inr ⟨_, rfl, hline, mem_append_right _ hletter, mem_append_right _ hform⟩)

theorem smallForm_of_mem {c d : Char} (h : d ∈ smallForm c) : smallForm d = [d] ∧ (d = '_' → c = '_') := by
  rcases smallForm_cases c with hc | rfl | ⟨e, hc, hline, -, hform⟩
  · rw [hc, mem_singleton] at h
    subst h
    exact ⟨hc, id⟩
  · have hforms : (smallForm 'İ').all fun d => smallForm d = [d] ∧ d ≠ '_' := by decide +kernel
    obtain ⟨hd, hne⟩ := of_decide_eq_true (all_eq_true.mp hforms d h)
    exact ⟨hd, fun he => absurd he hne⟩
  · rw [hc, mem_singleton] at h
    subst h
    have hapart : d.toNat ∉ 0x130 :: smallRuns.flatMap Run.letters := by
      rw [← testBit_mask] at hform ⊢
      have hbit := congrArg (Nat.testBit · d.toNat) small_forms_apart
      simpa [Nat.testBit_and, hform] using hbit
    rcases smallForm_cases d with hd | rfl | ⟨e, -, -, hd, -⟩
    · exact ⟨hd, (absurd · hline)⟩
    · exact absurd mem_cons_self hapart
    · exact absurd (mem_cons_of_mem _ hd) hapart

theorem isCased_smallForm {c d : Char} (h : smallForm c = [d]) : isCased d = isCased c := by
  have hcased {e : Char} {l : Run → List Nat} (he : e.toNat ∈ smallRuns.flatMap l)
    (hl : ∀ r, l r ⊆ r.letters ++ r.forms) :
      isCased e = true := by
    obtain ⟨r, hr, he⟩ := mem_flatMap.mp he
    exact inSpans_of_mem small_forms_cased (mem_flatMap.mpr ⟨r, hr, hl r he⟩)
  rcases smallForm_cases c with hc | rfl | ⟨e, hc, -, hletter, hform⟩
  · rw [singleton_inj.mp (h.symm.trans hc)]
  · cases h
  · rw [hcased hletter fun r => subset_append_left .., singleton_inj.mp (h.symm.trans hc),
      hcased hform fun r => subset_append_right ..]

theorem titleForm_spec (c : Char) : titleForm c ≠ [] ∧ (c ≠ '_' → '_' ∉ titleForm c) := by
  have hlong : ∀ p ∈ longTitles, p.2 ≠ [] ∧ '_' ∉ p.2.map Char.ofNat := by decide +kernel
  rw [titleForm]
  split
  · by_cases h : isSmall c = true
    · have hsmall : ∀ n ∈ range' 97 26, '_' ∉ [Char.ofNat (n - 32)] := by decide
      have := toNat_of_isSmall h
      rw [if_pos h]
      exact ⟨by simp, fun _ => hsmall c.toNat (mem_range'_1.mpr (by omega))⟩
    · rw [if_neg h]
      exact ⟨by simp, fun hc => by simpa using hc.symm⟩
  · split
    next p form h =>
      have := hlong _ (mem_of_find?_eq_some h)
      exact ⟨by simpa using this.1, fun _ => this.2⟩
    next =>
      refine ⟨by simp, fun hc => ?_⟩
      rw [mem_singleton, eq_comm]
      rcases formIn_cases (subset_append_right smallRuns titleRuns) c with h | ⟨-, -, h⟩
      · exact fun e => hc (h.symm.trans e)
      · exact h

/-- The character is the title form of its small form. -/
def IsTitle (c : Char) : Prop := (smallForm c).flatMap titleForm = [c]

instance (c : Char) : Decidable (IsTitle c) := inferInstanceAs (Decidable (_ = _))

theorem isTitle_of_isCapital {c : Char} (h : isCapital c = true) : IsTitle c := by
  have hcapitals : ∀ n ∈ range' 65 26, IsTitle (Char.ofNat n) := by decide
  have := toNat_of_isCapital h
  exact Char.ofNat_toNat c ▸ hcapitals c.toNat (mem_range'_1.mpr (by omega))

theorem isCapital_of_isSmall {c : Char} (h : isSmall c = true) : isCapital c = false := by
  have hsmall := toNat_of_isSmall h
  rw [Bool.eq_false_iff]
  intro hc
  have := toNat_of_isCapital hc
  omega

theorem smallAt_cases (before : List Char) (c : Char) (after : List Char) :
    smallAt before c after = smallForm c ∨ c = 'Σ' ∧ smallAt before c after = ['ς'] := by
  rw [smallAt]
  split
  next h =>
    subst h
    split
    · exact .inr ⟨rfl, rfl⟩
    · exact .inl (by decide)
  next => exact .inl rfl

section
variable {before after : List Char} {c d : Char}

theorem smallAt_of_small (h : smallForm c = [c]) : smallAt before c after = [c] := by
  rcases smallAt_cases before c after with hc | ⟨rfl, -⟩
  · rw [hc, h]
  · exact absurd h (by decide)

theorem smallForm_eq_of_mem_smallAt (h : d ∈ smallAt before c after) : smallForm d = [d] := by
  rcases smallAt_cases before c after with hc | ⟨-, hc⟩ <;> rw [hc] at h
  · exact (smallForm_of_mem h).1
  · exact mem_singleton.mp h ▸ by decide

end

/-! ## Words -/

/-- What is put together from words of small letters. -/
def joinedWords : Bool → List Char → List Char
  | _, [] => []
  | w, c :: r =>
    if c = '_' then joinedWords false r else (if w then [c] else titleForm c) ++ joinedWords (isCased c) r

theorem joinedWords_cons {c : Char} (hc : c ≠ '_') (w : Bool) (r : List Char) :
    joinedWords w (c :: r) = (if w then [c] else titleForm c) ++ joinedWords (isCased c) r := if_neg hc

theorem pascal_toList {s : String} (hs : ∀ c ∈ s.toList, smallForm c = [c]) :
    (pascal s).toList = joinedWords false s.toList := by
  have hwords : ∀ before : List Char, ∃ part parts, splitChars '_' s.toList = part :: parts ∧
      titleFrom before part ++ parts.flatMap (titleFrom []) = joinedWords (before.head?.any isCased) s.toList := by
    generalize s.toList = cs at hs
    induction cs with
    | nil => exact fun _ => ⟨[], [], rfl, rfl⟩
    | cons c cs ih =>
      intro before
      have ih := ih fun d hd => hs d (mem_cons_of_mem _ hd)
      by_cases hc : c = '_'
      · obtain ⟨part, parts, hsplit, hparts⟩ := ih []
        exact ⟨[], part :: parts, by simp [splitChars, hsplit, hc], by rw [joinedWords, if_pos hc]; exact hparts⟩
      · obtain ⟨part, parts, hsplit, hparts⟩ := ih (c :: before)
        refine ⟨c :: part, parts, by simp [splitChars, hsplit, hc], ?_⟩
        rw [joinedWords_cons hc, titleFrom, smallAt_of_small (hs c mem_cons_self), append_assoc, hparts]
        rfl
  obtain ⟨part, parts, hsplit, hparts⟩ := hwords []
  refine .trans ?_ hparts
  simp [pascal, split, hsplit, title, String.toList_join, flatMap_map]

/-- A word starts behind `c`: with a capital behind a small letter or a digit, or with a small letter behind it. -/
def starts (c : Char) : List Char → Bool
  | u :: r => isCapital u && (isSmall c || isDecimal c || c != '\n' && (r.head?.map isSmall).getD false)
  | [] => false

def broken : List Char → List Char
  | [] => []
  | c :: r => c :: if starts c r then '_' :: broken r else broken r

theorem broken_cons (c : Char) (r : List Char) :
    broken (c :: r) = c :: if starts c r then '_' :: broken r else broken r := rfl

theorem breakBefore_cons (w : Bool) (c : Char) (r : List Char) : ∃ t, breakBefore w (c :: r) = c :: t := by
  cases r with
  | nil => exact ⟨[], rfl⟩
  | cons u r =>
    rw [breakBefore]
    split
    · exact ⟨_, rfl⟩
    · split <;> exact ⟨_, rfl⟩

theorem breakInner_cons (c u : Char) (r : List Char) : breakInner (c :: u :: r) =
    c :: if (isSmall c || isDecimal c) && isCapital u then '_' :: breakInner (u :: r) else breakInner (u :: r) := by
  rw [breakInner]
  split <;> rfl

theorem breakInner_unbroken {w : Bool} {c u : Char} {r : List Char}
    (hstart : starts c (u :: r) = ((isSmall c || isDecimal c) && isCapital u))
    (ih : breakInner (breakBefore w (u :: r)) = broken (u :: r)) :
    breakInner (c :: breakBefore w (u :: r)) = broken (c :: u :: r) := by
  obtain ⟨t, ht⟩ := breakBefore_cons w u r
  rw [ht] at ih ⊢
  rw [breakInner_cons, ih, broken_cons c, hstart]

theorem breakInner_breakBefore (w : Bool) (cs : List Char) : breakInner (breakBefore w cs) = broken cs := by
  fun_induction breakBefore w cs with
  | case1 => rfl
  | case2 => rfl
  | case3 w c u r h ih =>
    refine breakInner_unbroken ?_ ih
    rw [Bool.and_eq_true] at h
    simp [starts, h.2]
  | case4 w c u r h h' ih =>
    simp only [Bool.and_eq_true] at h'
    obtain ⟨⟨hline, hcapital⟩, hsmall⟩ := h'
    cases r with
    | nil => simp at hsmall
    | cons d r =>
      have hd : isCapital d = false := isCapital_of_isSmall (by simpa using hsmall)
      have hinner : starts u (d :: r) = false := by simp [starts, hd]
      have hstart : starts c (u :: d :: r) = true := by
        simp only [starts, hcapital, hline, hsmall]
        simp
      obtain ⟨t, ht⟩ := breakBefore_cons true d r
      have hword : breakInner (u :: d :: t) = broken (u :: d :: r) := by
        rw [breakInner_cons, ← ht, ih, broken_cons u, hinner]
        simp [hd]
      rw [ht, breakInner_cons, breakInner_cons, hword, broken_cons c, hstart]
      simp [isCapital, isSmall, isDecimal]
  | case5 w c u r h h' ih =>
    refine breakInner_unbroken ?_ ih
    simp only [starts]
    grind

theorem snake_toList (s : String) : (snake s).toList = lowerFrom [] (broken s.toList) := by
  simp [snake, lower, breakInner_breakBefore]

theorem mem_lowerFrom {d : Char} {before cs : List Char} (h : d ∈ lowerFrom before cs) :
    ∃ c ∈ cs, ∃ before after, d ∈ smallAt before c after := by
  induction cs generalizing before with
  | nil => cases h
  | cons c r ih =>
    rcases mem_append.mp h with h | h
    · exact ⟨c, mem_cons_self, before, r, h⟩
    · obtain ⟨e, he, h⟩ := ih h
      exact ⟨e, mem_cons_of_mem _ he, h⟩

theorem snake_small (s : String) : ∀ c ∈ (snake s).toList, smallForm c = [c] := by
  intro c hc
  rw [snake_toList] at hc
  obtain ⟨d, -, before, after, hd⟩ := mem_lowerFrom hc
  exact smallForm_eq_of_mem_smallAt hd

theorem lowLine_not_mem_joinedWords (w : Bool) (cs : List Char) : '_' ∉ joinedWords w cs := by
  induction cs generalizing w with
  | nil => exact not_mem_nil
  | cons c r ih =>
    rw [joinedWords]
    split
    · exact ih false
    next hc =>
      rw [mem_append, not_or]
      refine ⟨?_, ih _⟩
      split
      · simpa using hc ∘ Eq.symm
      · exact (titleForm_spec c).2 hc

/-! ## Capitals -/

/-- A second run keeps the character, inside a word or at its start. -/
def Kept (w : Bool) (c : Char) : Prop := if w then smallForm c = [c] else IsTitle c

instance (w : Bool) (c : Char) : Decidable (Kept w c) := inferInstanceAs (Decidable (ite ..))

/-- A second run keeps the characters. -/
def Found : Bool → List Char → Prop
  | _, [] => True
  | w, c :: r => Kept w c ∧ Found (isCased c && !starts c r) r

/-- What a second run writes for one character. -/
theorem joinedWords_smallAt (w : Bool) (before : List Char) {c : Char} (hc : c ≠ '_') (after : List Char) :
    ∃ form v, form ≠ [] ∧ (form = [c] ↔ Kept w c) ∧ (form = [c] → v = isCased c) ∧
      ∀ r, joinedWords w (smallAt before c after ++ r) = form ++ joinedWords v r := by
  have hone (d : Char) (hd : d ≠ '_') (h : smallAt before c after = [d]) (r : List Char) :
      joinedWords w (smallAt before c after ++ r) = (if w then [d] else titleForm d) ++ joinedWords (isCased d) r := by
    rw [h, singleton_append, joinedWords_cons hd]
  have hfilled (d : Char) : (if w then [d] else titleForm d) ≠ [] := by
    split
    · exact cons_ne_nil d []
    · exact (titleForm_spec d).1
  rcases smallAt_cases before c after with h | ⟨rfl, h⟩
  · have hsmall : ∀ d, smallForm c = [d] → d ≠ '_' :=
      fun d hd he => hc ((smallForm_of_mem (hd ▸ mem_singleton.mpr rfl)).2 he)
    have hforms : (∃ d, smallForm c = [d]) ∨ c = Char.ofNat 0x130 := by
      rcases smallForm_cases c with h | h | ⟨d, h, -⟩
      · exact .inl ⟨c, h⟩
      · exact .inr h
      · exact .inl ⟨d, h⟩
    rcases hforms with ⟨d, hd⟩ | rfl
    · refine ⟨_, _, hfilled d, ?_, ?_, hone d (hsmall d hd) (h.trans hd)⟩
      · cases w <;> simp [Kept, IsTitle, hd]
      · exact fun _ => isCased_smallForm hd
    · -- the only letter with a small form of two characters
      refine ⟨(if w then ['i'] else titleForm 'i') ++ if isCased 'i' then ['\u0307'] else titleForm '\u0307',
        isCased '\u0307', ?_, ?_, ?_, fun r => ?_⟩
      · cases w <;> decide
      · cases w <;> decide +kernel
      · cases w <;> decide
      · have hforms : smallForm (Char.ofNat 0x130) = ['i', '\u0307'] := by decide
        rw [h, hforms, cons_append, singleton_append, joinedWords_cons (by decide), joinedWords_cons (by decide),
          append_assoc]
  · refine ⟨_, _, hfilled 'ς', ?_, fun _ => ?_, hone 'ς' (by decide) h⟩
    · cases w <;> decide
    · decide

theorem joinedWords_broken {cs : List Char} (h : '_' ∉ cs) (w : Bool) (before : List Char) :
    cs.length ≤ (joinedWords w (lowerFrom before (broken cs))).length ∧
      (joinedWords w (lowerFrom before (broken cs)) = cs ↔ Found w cs) := by
  induction cs generalizing w before with
  | nil => simp [broken, lowerFrom, joinedWords, Found]
  | cons c r ih =>
    rw [mem_cons, not_or] at h
    obtain ⟨hc, hr⟩ := h
    obtain ⟨form, v, hform, hkept, hv, hjoined⟩ := joinedWords_smallAt w before (Ne.symm hc)
      (if starts c r then '_' :: broken r else broken r)
    have hrest : ∃ before', joinedWords v (lowerFrom (c :: before) (if starts c r then '_' :: broken r else broken r)) =
        joinedWords (v && !starts c r) (lowerFrom before' (broken r)) := by
      split
      next hstart => exact ⟨'_' :: c :: before, by simp [lowerFrom, smallAt, smallForm, joinedWords, hstart, isCapital]⟩
      next hstart => exact ⟨c :: before, by simp [hstart]⟩
    obtain ⟨before', hrest⟩ := hrest
    rw [broken_cons, lowerFrom, hjoined, hrest]
    obtain ⟨hlength, hfound⟩ := ih hr (v && !starts c r) before'
    have hpos := length_pos_iff.mpr hform
    refine ⟨by rw [length_append, length_cons]; omega, ?_⟩
    have hsplit : form ++ joinedWords (v && !starts c r) (lowerFrom before' (broken r)) = c :: r ↔
        form = [c] ∧ joinedWords (v && !starts c r) (lowerFrom before' (broken r)) = r := by
      constructor
      · intro heq
        have hsum := congrArg length heq
        rw [length_append, length_cons] at hsum
        exact append_inj heq (by rw [length_singleton]; omega)
      · rintro ⟨h, h'⟩
        rw [h, h', singleton_append]
    rw [hsplit, hfound, Found, hkept]
    refine and_congr_right fun h => ?_
    rw [hv (hkept.mpr h)]

/-- Every capital behind a letter starts a word. -/
def Marked : List Char → Prop
  | [] => True
  | c :: r => (∀ u ∈ r.head?, isCased c = true → smallForm u ≠ [u] → starts c r = true) ∧ Marked r

/-- A character that is not behind a letter is in its title form. -/
def Titled : Bool → List Char → Prop
  | _, [] => True
  | w, c :: r => (w = false → IsTitle c) ∧ Titled (isCased c) r

theorem found_cons_iff (w : Bool) (c : Char) (r : List Char) :
    Found w (c :: r) ↔ Kept w c ∧ Marked (c :: r) ∧ Titled (isCased c) r := by
  induction r generalizing w c with
  | nil => simp [Found, Marked, Titled]
  | cons u r ih =>
    have hstart : starts c (u :: r) = true → IsTitle u := fun h => isTitle_of_isCapital (Bool.and_eq_true_iff.mp h).1
    have hmarked : Marked (c :: u :: r) ↔
        (isCased c = true → smallForm u ≠ [u] → starts c (u :: r) = true) ∧ Marked (u :: r) := by simp [Marked]
    rw [Found, ih, hmarked, Titled]
    simp only [Kept]
    grind

theorem found_iff (cs : List Char) : Found false cs ↔ Marked cs ∧ Titled false cs := by
  cases cs with
  | nil => simp [Found, Marked, Titled]
  | cons c r =>
    rw [found_cons_iff, Titled, and_left_comm]
    simp [Kept]

/-- The letters of English have forms of one character, which lead back to each other. -/
theorem english_forms {c : Char} (h : c.toNat < 0x80) : (∀ d ∈ smallForm c, d.toNat < 0x80) ∧
    ∃ t, titleForm c = [t] ∧ IsTitle t ∧ isCased t = isCased c := by
  have hforms : ∀ n ∈ range 0x80, (smallForm (Char.ofNat n)).all (·.toNat < 0x80) ∧
      (titleForm (Char.ofNat n)).length = 1 ∧
      (titleForm (Char.ofNat n)).all fun t => IsTitle t ∧ isCased t = isCased (Char.ofNat n) := by decide +kernel
  have hc := hforms c.toNat (mem_range.mpr h)
  rw [Char.ofNat_toNat] at hc
  obtain ⟨hsmall, hone, htitle⟩ := hc
  obtain ⟨t, ht⟩ := length_eq_one_iff.mp hone
  rw [ht] at htitle
  exact ⟨fun d hd => of_decide_eq_true (all_eq_true.mp hsmall d hd), t, ht,
    of_decide_eq_true (all_eq_true.mp htitle t (mem_singleton_self t))⟩

theorem titled_joinedWords {cs : List Char} (h : ∀ c ∈ cs, c.toNat < 0x80) (v w : Bool) (hw : v = true → w = true) :
    Titled w (joinedWords v cs) := by
  induction cs generalizing v w with
  | nil => trivial
  | cons c cs ih =>
    have ih := ih fun d hd => h d (mem_cons_of_mem _ hd)
    rw [joinedWords]
    split
    · exact ih false w (by simp)
    · cases v with
      | false =>
        obtain ⟨-, t, hform, htitle, hcased⟩ := english_forms (h c mem_cons_self)
        rw [if_neg (by simp), hform]
        exact ⟨fun _ => htitle, hcased ▸ ih _ _ id⟩
      | true => exact ⟨fun hw' => by simp [hw rfl] at hw', ih _ _ id⟩

theorem mem_broken {c : Char} {cs : List Char} (h : c ∈ broken cs) : c = '_' ∨ c ∈ cs := by
  induction cs with
  | nil => cases h
  | cons d r ih =>
    rw [broken_cons] at h
    grind

theorem snake_english {s : String} (h : ∀ c ∈ s.toList, c.toNat < 0x80) : ∀ c ∈ (snake s).toList, c.toNat < 0x80 := by
  intro c hc
  rw [snake_toList] at hc
  obtain ⟨d, hd, before, after, hc⟩ := mem_lowerFrom hc
  have hcode : d.toNat < 0x80 := (mem_broken hd).elim (fun e => e ▸ by decide) (h d)
  rcases smallAt_cases before d after with hform | ⟨rfl, -⟩
  · exact (english_forms hcode).1 c (hform ▸ hc)
  · exact absurd hcode (by decide)

/-- A name put together from words is found again if every capital behind a letter starts a word and every other
character is in its title form. In a name of English letters the second is so. -/
theorem pascal_snake_iff (n : String) :
    (pascal (snake (pascal (snake n))) = pascal (snake n) ↔
      Marked (pascal (snake n)).toList ∧ Titled false (pascal (snake n)).toList) ∧
    ((∀ c ∈ n.toList, c.toNat < 0x80) → Titled false (pascal (snake n)).toList) := by
  have hjoined := pascal_toList (snake_small n)
  constructor
  · rw [← String.toList_inj, pascal_toList (snake_small _), snake_toList (pascal _), hjoined]
    have hbar := lowLine_not_mem_joinedWords false (snake n).toList
    exact (joinedWords_broken hbar false []).2.trans (found_iff _)
  · intro h
    rw [hjoined]
    have hcodes := snake_english h
    generalize (snake n).toList = cs at hcodes
    exact titled_joinedWords hcodes false false id

end NetBridge.Text
