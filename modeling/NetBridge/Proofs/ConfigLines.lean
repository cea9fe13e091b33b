import NetBridge.Config.Basic
import NetBridge.Proofs.NumberText
import NetBridge.Proofs.TableView
import NetBridge.Proofs.RunSteps
import Mathlib.Data.List.DropRight

/-!
# Configurations that are written and read again

What is read from a text is in a form that writing keeps, so a configuration that was read, written and read again is
the same, with every setting as text (`parse_render`).
-/

namespace NetBridge

open List Table

namespace Text

variable {p q : Char → Bool} {cs : List Char}

/-! ## Characters at the ends -/

/-- No character of the first kind in front and none of the second at the back. -/
structure Stripped (p q : Char → Bool) (cs : List Char) : Prop where
  front : cs.dropWhile p = cs
  back : cs.reverse.dropWhile q = cs.reverse

theorem stripped_strip (p q : Char → Bool) (cs : List Char) :
    Stripped p q ((cs.dropWhile p).reverse.dropWhile q).reverse := by
  have hfront : (cs.dropWhile p).dropWhile p = cs.dropWhile p := dropWhile_idempotent p cs
  have hprefix : ((cs.dropWhile p).reverse.dropWhile q).reverse <+: cs.dropWhile p := by
    rw [← reverse_suffix, reverse_reverse]
    exact dropWhile_suffix q
  refine ⟨?_, by rw [reverse_reverse, dropWhile_idempotent]⟩
  generalize ((cs.dropWhile p).reverse.dropWhile q).reverse = ds at hprefix
  cases ds with
  | nil => rfl
  | cons d ds =>
    obtain ⟨es, hes⟩ := hprefix
    rw [← hes, cons_append, dropWhile_cons] at hfront
    split at hfront
    · have := congrArg length hfront
      have := (dropWhile_suffix p (l := ds ++ es)).length_le
      simp at *
      omega
    · rename_i hd
      exact dropWhile_cons_of_neg hd

variable {c sep : Char}

theorem mem_of_mem_strip (h : c ∈ ((cs.dropWhile p).reverse.dropWhile q).reverse) : c ∈ cs :=
  (dropWhile_sublist p).mem (mem_reverse.mp ((dropWhile_sublist q).mem (mem_reverse.mp h)))

theorem Stripped.trimBy_eq (h : Stripped p p cs) : trimBy p cs = cs := by
  rw [trimBy, h.front, h.back, reverse_reverse]

theorem Stripped.trim_after (h : Stripped p q cs) (hc : q c = false) (ds : List Char) :
    ((ds ++ c :: cs).reverse.dropWhile q).reverse = ds ++ c :: cs := by
  have hmark : (c :: ds.reverse).dropWhile q = c :: ds.reverse := dropWhile_cons_of_neg (by simp [hc])
  have hsplit : (ds ++ c :: cs).reverse = cs.reverse ++ c :: ds.reverse := by simp
  rw [hsplit, dropWhile_append, h.back]
  split
  · simp_all
  · simp

/-! ## Lines of a text -/

theorem mem_splitChars {part : List Char} (hpart : part ∈ splitChars sep cs) (hc : c ∈ part) : c ∈ cs ∧ c ≠ sep := by
  induction cs generalizing part with
  | nil => simp_all [splitChars]
  | cons d cs ih =>
    rw [splitChars] at hpart
    split at hpart
    · rename_i hnil
      exact absurd hnil (splitChars_ne_nil _ _)
    · rename_i first others hsplit
      rw [hsplit] at ih
      split at hpart
      · rcases mem_cons.mp hpart with rfl | hpart
        · cases hc
        · exact ⟨.tail _ (ih hpart hc).1, (ih hpart hc).2⟩
      · rename_i hd
        rcases mem_cons.mp hpart with rfl | hpart
        · rcases mem_cons.mp hc with rfl | hc
          · exact ⟨.head _, hd⟩
          · exact ⟨.tail _ (ih (.head _) hc).1, (ih (.head _) hc).2⟩
        · exact ⟨.tail _ (ih (.tail _ hpart) hc).1, (ih (.tail _ hpart) hc).2⟩

theorem not_mem_unifyLineEnds (cs : List Char) : '\r' ∉ unifyLineEnds cs := by
  fun_induction unifyLineEnds cs <;> simp_all [eq_comm]

theorem unifyLineEnds_of_not_mem (h : '\r' ∉ cs) : unifyLineEnds cs = cs := by
  fun_induction unifyLineEnds cs <;> simp_all

theorem splitChars_lines {lines : List (List Char)} (h : ∀ line ∈ lines, sep ∉ line) :
    splitChars sep (lines.flatMap (· ++ [sep])) = lines ++ [[]] := by
  induction lines with
  | nil => rfl
  | cons line lines ih =>
    rw [flatMap_cons, append_assoc, singleton_append, splitChars_append (h line (.head _)),
      ih fun l hl => h l (.tail _ hl), cons_append]

theorem splitChars_written {lines : List String} (h : ∀ s ∈ lines, '\n' ∉ s.toList ∧ '\r' ∉ s.toList) :
    splitChars '\n' (unifyLineEnds (String.join (lines.map (· ++ "\n"))).toList) = lines.map String.toList ++ [[]] := by
  have hchars : (String.join (lines.map (· ++ "\n"))).toList = (lines.map String.toList).flatMap (· ++ ['\n']) := by
    simp [flatMap_map]
  have hends : '\r' ∉ (lines.map String.toList).flatMap (· ++ ['\n']) := by
    simp only [mem_flatMap, mem_map, mem_append]
    rintro ⟨_, ⟨s, hs, rfl⟩, hc | hc⟩
    · exact (h s hs).2 hc
    · exact absurd hc (by decide)
  rw [hchars, unifyLineEnds_of_not_mem hends, splitChars_lines]
  rintro _ hline
  obtain ⟨s, hs, rfl⟩ := mem_map.mp hline
  exact (h s hs).1

end Text

namespace Config

open Text

/-! ## What is read -/

/-- A name or a setting as it can stand in a line. -/
structure Plain (s : String) : Prop where
  trimmed : Stripped isBlank isBlank s.toList
  clear : ∀ c ∈ ['=', '#', '\n', '\r'], c ∉ s.toList

structure PlainType (s : String) : Prop where
  stripped : Stripped (· == '[') (· == ']') s.toList
  clear : '\n' ∉ s.toList ∧ '\r' ∉ s.toList

def Line.Plain : Line → Prop
  | .header type => PlainType type
  | .setting key value => Config.Plain key ∧ Config.Plain value
  | _ => True

theorem plain_settingLine {cs : List Char} (h : '\n' ∉ cs ∧ '\r' ∉ cs) : (settingLine cs).Plain := by
  unfold settingLine
  split
  · rename_i key value hsplit
    have hplain (part : List Char) (hpart : part ∈ splitChars '=' (cs.takeWhile (· != '#'))) :
        Config.Plain (String.ofList (trimBy isBlank part)) := by
      refine ⟨by rw [String.toList_ofList]; exact stripped_strip .., fun c hc hmem => ?_⟩
      rw [String.toList_ofList] at hmem
      obtain ⟨hline, hne⟩ := mem_splitChars hpart (mem_of_mem_strip hmem)
      have hcs := (takeWhile_sublist _).mem hline
      have hmark : c ≠ '#' := by simpa using mem_takeWhile_imp hline
      simp only [mem_cons, not_mem_nil, or_false] at hc
      rcases hc with rfl | rfl | rfl | rfl
      · exact hne rfl
      · exact hmark rfl
      · exact h.1 hcs
      · exact h.2 hcs
    exact ⟨hplain key (by rw [hsplit]; simp), hplain value (by rw [hsplit]; simp)⟩
  · trivial

variable {s type key value : String} {b : Block} {bs : List Block}

theorem plain_ofText (h : '\n' ∉ s.toList ∧ '\r' ∉ s.toList) : (Line.ofText s).Plain := by
  have hsub {c : Char} (hc : c ∈ (s.toList.reverse.dropWhile isBlank).reverse) : c ∈ s.toList :=
    mem_reverse.mp ((dropWhile_sublist _).mem (mem_reverse.mp hc))
  unfold Line.ofText
  split
  · trivial
  · trivial
  · rename_i r hr
    refine ⟨by rw [headerType, String.toList_ofList]; exact stripped_strip .., ?_⟩
    rw [headerType, String.toList_ofList]
    exact ⟨fun hc => h.1 (hsub (hr ▸ .tail _ (mem_of_mem_strip hc))),
      fun hc => h.2 (hsub (hr ▸ .tail _ (mem_of_mem_strip hc)))⟩
  · exact plain_settingLine ⟨fun hc => h.1 (hsub hc), fun hc => h.2 (hsub hc)⟩

/-- A block as it is read: each name once, none of them that of the type, and a convolution starts with its default. -/
structure Block.Plain (b : Block) : Prop where
  type : PlainType b.type
  once : b.settings.keys.Nodup
  entries : ∀ e ∈ b.settings.entries, e.1 ≠ "type" ∧ Config.Plain e.1 ∧ Config.Plain e.2.text
  default : b.type = "convolutional" → b.settings.keys.head? = some "batch_normalize"

theorem Block.plain_start (h : PlainType type) : (Block.start type).Plain := by
  by_cases hconv : type = "convolutional"
  · subst hconv
    refine ⟨h, by decide, fun e he => ?_, fun _ => rfl⟩
    obtain rfl := mem_singleton.mp he
    exact ⟨by decide, ⟨⟨by decide, by decide⟩, by simp⟩, ⟨⟨by decide, by decide⟩, by simp; decide⟩⟩
  · have hempty : (Block.start type).settings = ∅ := if_neg hconv
    exact ⟨h, by rw [hempty]; exact .nil, by rw [hempty]; exact forall_mem_nil _, fun hc => absurd hc hconv⟩

theorem mem_insertIn {β : Type} {k : String} {v : β} {es : List (String × β)} {e : String × β}
    (h : e ∈ insertIn k v es) : e = (k, v) ∨ e ∈ es := by
  induction es with
  | nil => simpa [insertIn] using h
  | cons d es ih =>
    rw [insertIn] at h
    split at h
    · exact (mem_cons.mp h).imp_right (.tail _)
    · rcases mem_cons.mp h with rfl | h
      · exact .inr (.head _)
      · exact (ih h).imp_right (.tail _)

theorem Block.Plain.set (h : b.Plain) (hkey : Config.Plain key)
    (hvalue : Config.Plain value) : (b.set key value).Plain := by
  have hname : settingKey key ≠ "type" ∧ Config.Plain (settingKey key) := by
    unfold settingKey
    split
    · exact ⟨by decide, ⟨⟨by decide, by decide⟩, by simp⟩⟩
    · rename_i hne
      exact ⟨hne, hkey⟩
  refine ⟨h.type, nodup_keys_insert h.once _ _, fun e he => ?_, fun hconv => ?_⟩
  · rcases mem_insertIn he with rfl | he
    · exact ⟨hname.1, hname.2, hvalue⟩
    · exact h.entries e he
  · have hhead := h.default hconv
    change (b.settings.insert (settingKey key) (.given value)).keys.head? = _
    rw [keys_insert]
    split
    · exact hhead
    · rw [head?_append, hhead, Option.some_or]

theorem plain_blocksFrom {b : Option Block} {ls : List Line} (h : blocksFrom b ls = .ok bs)
    (hb : ∀ x ∈ b, x.Plain) (hls : ∀ line ∈ ls, line.Plain) : ∀ x ∈ bs, x.Plain := by
  induction ls generalizing b bs with
  | nil =>
    cases h
    simpa using hb
  | cons line ls ih =>
    have hrest : ∀ line ∈ ls, line.Plain := fun l hl => hls l (.tail _ hl)
    have hline := hls line (.head _)
    cases line with
    | blank => exact ih (by simpa [blocksFrom] using h) hb hrest
    | malformed => simp [blocksFrom] at h
    | header type =>
      obtain ⟨others, hothers, ⟨⟩⟩ := bind_cases h
      intro x hx
      rcases mem_append.mp hx with hx | hx
      · exact hb x (by simpa using hx)
      · exact ih hothers (by simpa using Block.plain_start hline) hrest x hx
    | setting key value =>
      cases b with
      | none => simp [blocksFrom] at h
      | some b =>
        exact ih h (by simpa using (hb b rfl).set hline.1 hline.2) hrest

theorem plain_of_parse {text : String} (h : parse text = .ok bs) : ∀ b ∈ bs, b.Plain := by
  refine plain_blocksFrom h (by simp) fun line hline => ?_
  obtain ⟨s, hs, rfl⟩ := mem_map.mp hline
  obtain ⟨part, hpart, rfl⟩ := mem_map.mp hs
  refine plain_ofText ?_
  rw [String.toList_ofList]
  exact ⟨fun hc => (mem_splitChars hpart hc).2 rfl,
    fun hc => not_mem_unifyLineEnds _ (mem_splitChars hpart hc).1⟩

/-! ## What is written -/

def Block.asText (b : Block) : Block := { b with settings := b.settings.map fun _ s => .given s.text }

theorem ofText_header (h : PlainType type) : Line.ofText ("[" ++ type ++ "]") = .header type := by
  have hchars : ("[" ++ type ++ "]").toList = ('[' :: type.toList) ++ ']' :: [] := by simp
  have htrim : Stripped isBlank isBlank [] := ⟨rfl, rfl⟩
  have hfront : (type.toList ++ [']']).dropWhile (· == '[') = type.toList ++ [']'] := by
    rw [dropWhile_append, h.stripped.front]
    split <;> simp_all
  have hback : (']' :: type.toList.reverse).dropWhile (· == ']') = type.toList.reverse := by
    rw [dropWhile_cons_of_pos rfl, h.stripped.back]
  rw [Line.ofText, hchars, htrim.trim_after (by decide)]
  simp [headerType, hfront, hback]

theorem ofText_setting (hkey : Plain key) (hvalue : Plain value)
    (hstart : key.toList.head? ≠ some '[') : Line.ofText (key ++ "=" ++ value) = .setting key value := by
  have hchars : (key ++ "=" ++ value).toList = key.toList ++ '=' :: value.toList := by simp
  have hall : (key.toList ++ '=' :: value.toList).takeWhile (· != '#') = key.toList ++ '=' :: value.toList := by
    rw [takeWhile_eq_self_iff]
    intro c hc
    have hk := hkey.clear '#' (by simp)
    have hv := hvalue.clear '#' (by simp)
    simp only [mem_append, mem_cons] at hc
    rcases hc with hc | rfl | hc
    · simpa using fun e : c = '#' => hk (e ▸ hc)
    · decide
    · simpa using fun e : c = '#' => hv (e ▸ hc)
  have hline : settingLine (key.toList ++ '=' :: value.toList) = .setting key value := by
    rw [settingLine, hall, splitChars_append (hkey.clear '=' (by simp)),
      splitChars_of_not_mem (hvalue.clear '=' (by simp))]
    simp [hkey.trimmed.trimBy_eq, hvalue.trimmed.trimBy_eq]
  have hfirst {c : Char} {r : List Char} (h : key.toList ++ '=' :: value.toList = c :: r) (hc : c ≠ '=') :
      key.toList.head? = some c := by
    cases hk : key.toList with
    | nil => exact absurd (by simpa [hk] using (cons.inj (hk ▸ h)).1.symm) hc
    | cons d ds => simpa [hk] using (cons.inj (hk ▸ h)).1
  rw [Line.ofText, hchars, hvalue.trimmed.trim_after (by decide)]
  split
  · simp_all
  · rename_i r hr
    exact absurd (mem_of_head? (hfirst hr (by decide))) (hkey.clear '#' (by simp))
  · rename_i r hr
    exact absurd (hfirst hr (by decide)) hstart
  · exact hline

theorem blocksFrom_settings (b : Block) (es : List (String × Setting)) (ls : List Line) :
    blocksFrom (some b) (es.map (fun e => Line.setting e.1 e.2.text) ++ ls) =
      blocksFrom (some (es.foldl (fun b e => b.set e.1 e.2.text) b)) ls := by
  induction es generalizing b with
  | nil => rfl
  | cons e es ih => exact ih (b.set e.1 e.2.text)

theorem foldl_set (b : Block) {es : List (String × Setting)} (h : ∀ e ∈ es, e.1 ≠ "type") :
    es.foldl (fun b e => b.set e.1 e.2.text) b =
      { b with settings := b.settings.insertAll (es.map fun e => (e.1, .given e.2.text)) } := by
  induction es generalizing b with
  | nil => rfl
  | cons e es ih =>
    have hkey : Block.settingKey e.1 = e.1 := if_neg (h e (.head _))
    rw [foldl_cons, ih _ fun d hd => h d (.tail _ hd), Block.set, hkey]
    rfl

/-- Writing all settings over the default of a block gives them back in order. -/
theorem Block.Plain.restored (h : b.Plain) :
    b.settings.entries.foldl (fun b e => b.set e.1 e.2.text) (.start b.type) = b.asText := by
  rw [foldl_set _ fun e he => (h.entries e he).1]
  refine congrArg (Block.mk b.type) (congrArg Table.mk ?_)
  have hkeys : ((b.settings.entries.map fun e => (e.1, Setting.given e.2.text)).map (·.1)).Nodup := by
    rw [List.map_map]
    exact h.once
  by_cases hconv : b.type = "convolutional"
  · have hdefault := h.default hconv
    have hstart : (Block.start b.type).settings = ⟨[("batch_normalize", .preset 0)]⟩ := if_pos hconv
    rw [Table.keys] at hdefault
    cases hes : b.settings.entries with
    | nil => simp [hes] at hdefault
    | cons e es =>
      rw [hes] at hkeys hdefault
      have hname : e.1 = "batch_normalize" := Option.some.inj hdefault
      have hwrite : (⟨[("batch_normalize", .preset 0)]⟩ : Table Setting).insert e.1 (.given e.2.text) =
          ⟨[(e.1, .given e.2.text)]⟩ := by
        rw [hname]
        rfl
      rw [hstart]
      change (Table.insertAll (Table.insert _ e.1 (Setting.given e.2.text)) _).entries = _
      rw [hwrite]
      exact Table.entries_insertAll hkeys
  · have hstart : (Block.start b.type).settings = ∅ := if_neg hconv
    rw [hstart]
    exact Table.entries_ofList hkeys

def Block.NoBracket (b : Block) : Prop := ∀ k ∈ b.settings.keys, k.toList.head? ≠ some '['

theorem Block.Plain.ofText_lines (h : b.Plain) (hkeys : b.NoBracket) : b.lines.map Line.ofText =
    .header b.type :: (b.settings.entries.map (fun e => Line.setting e.1 e.2.text) ++ [.blank]) := by
  rw [Block.lines, map_append, map_cons, ofText_header h.type, map_map]
  refine congrArg (_ :: · ++ _) (map_congr_left fun e he => ?_)
  exact ofText_setting (h.entries e he).2.1 (h.entries e he).2.2 (hkeys e.1 (mem_map_of_mem he))

theorem blocksFrom_lines (hbs : ∀ b ∈ bs, b.Plain ∧ b.NoBracket) (b : Option Block) :
    blocksFrom b ((lines bs).map Line.ofText ++ [.blank]) = .ok (b.toList ++ bs.map Block.asText) := by
  induction bs generalizing b with
  | nil => simp [lines, blocksFrom]
  | cons first bs ih =>
    obtain ⟨hplain, hkeys⟩ := hbs first (.head _)
    have hrest := ih (fun b hb => hbs b (.tail _ hb)) (some first.asText)
    have hlines : (lines (first :: bs)).map Line.ofText = .header first.type ::
        (first.settings.entries.map (fun e => Line.setting e.1 e.2.text) ++ .blank :: (lines bs).map Line.ofText) := by
      rw [lines, flatMap_cons, map_append, hplain.ofText_lines hkeys]
      simp [lines]
    rw [hlines, cons_append, blocksFrom, append_assoc, cons_append, blocksFrom_settings, blocksFrom,
      hplain.restored, hrest]
    rfl

theorem Block.Plain.clear_lines (h : b.Plain) (hs : s ∈ b.lines) : '\n' ∉ s.toList ∧ '\r' ∉ s.toList := by
  rw [Block.lines, mem_append, mem_cons, mem_map, mem_singleton] at hs
  rcases hs with (rfl | ⟨e, he, rfl⟩) | rfl
  · simpa using h.type.clear
  · obtain ⟨-, hkey, hvalue⟩ := h.entries e he
    have hk := hkey.clear
    have hv := hvalue.clear
    simp_all
  · simp

theorem parse_rendered (hbs : ∀ b ∈ bs, b.Plain ∧ b.NoBracket) : parse (render bs) = .ok (bs.map Block.asText) := by
  have hclear (s : String) (hs : s ∈ lines bs) : '\n' ∉ s.toList ∧ '\r' ∉ s.toList := by
    obtain ⟨b, hb, hs⟩ := mem_flatMap.mp hs
    exact (hbs b hb).1.clear_lines hs
  have hlines : fileLines (render bs) = lines bs ++ [""] := by
    rw [fileLines, render, splitChars_written hclear]
    simp
  rw [parse, hlines, map_append]
  exact blocksFrom_lines hbs none

theorem render_asText (bs : List Block) : render (bs.map Block.asText) = render bs := by
  have hlines (b : Block) : b.asText.lines = b.lines := by
    simp [Block.lines, Block.asText, Table.map, Setting.text]
  simp [render, lines, List.flatMap_map, hlines]

/-- Writing a configuration that was read and reading it again gives the same blocks, with the text of every
setting; from then on nothing changes. -/
theorem parse_render {text : String} {bs : List Block} (h : parse text = .ok bs)
    (hkeys : ∀ b ∈ bs, ∀ k ∈ b.settings.keys, k.toList.head? ≠ some '[') :
    parse (render bs) = .ok (bs.map Block.asText) ∧
      parse (render (bs.map Block.asText)) = .ok (bs.map Block.asText) := by
  have hparse := parse_rendered fun b hb => ⟨plain_of_parse h b hb, hkeys b hb⟩
  exact ⟨hparse, (render_asText bs).symm ▸ hparse⟩

def remarked : String := "[net]\nheight = 4 # rows\n\n[convolutional\ntype=3\nfilters=2\nfilters=5\n"

theorem parse_render_remarked : ∃ bs, parse remarked = .ok bs ∧
    bs.map (·.settings.keys) = [["height"], ["batch_normalize", "_type", "filters"]] ∧
    parse (render bs) = .ok (bs.map Block.asText) ∧
      parse (render (bs.map Block.asText)) = .ok (bs.map Block.asText) := by
  have hkeys : (Run.resultD (parse remarked) []).map (·.settings.keys) =
      [["height"], ["batch_normalize", "_type", "filters"]] := by decide +kernel
  have hparse : parse remarked = .ok (Run.resultD (parse remarked) []) := Run.eq_resultD (by decide +kernel)
  refine ⟨_, hparse, hkeys, parse_render hparse fun b hb => ?_⟩
  have hall : ∀ ks ∈ (Run.resultD (parse remarked) []).map (·.settings.keys), ∀ k ∈ ks, k.toList.head? ≠ some '[' :=
    hkeys ▸ by decide
  exact hall _ (mem_map_of_mem hb)

end Config

end NetBridge
