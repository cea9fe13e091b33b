import NetBridge.Code.Outline
import NetBridge.Proofs.NumberText
import NetBridge.Proofs.NetOrder
import NetBridge.Proofs.TableView
import Mathlib.Data.List.Chain

/-!
# Chains of an outline

A layer that reads one layer only goes behind it if that layer still ends its chain, and starts a chain otherwise.
So what a layer reads stands in its own chain before it or in an earlier chain, however long the earlier chains grow.
-/

namespace NetBridge

open List

namespace Text

theorem trimBy_append {p : Char → Bool} {cs ds : List Char} {c : Char} (h : trimBy p cs = cs) (hc : p c = false) :
    trimBy p (cs ++ c :: ds) = cs ++ c :: (ds.reverse.dropWhile p).reverse := by
  have hlead : cs.dropWhile p = cs := by
    refine (dropWhile_suffix p).eq_of_length_le ?_
    have hlength := congrArg length h
    have hshort := (dropWhile_suffix p (l := (cs.dropWhile p).reverse)).length_le
    simp only [trimBy, length_reverse] at hlength hshort
    omega
  have hmark (l : List Char) : (c :: l).dropWhile p = c :: l := dropWhile_cons_of_neg (by simp [hc])
  have hfirst : (cs ++ c :: ds).dropWhile p = cs ++ c :: ds := by
    rw [dropWhile_append, hlead, hmark]
    cases cs <;> rfl
  rw [trimBy, hfirst, reverse_append, reverse_cons, append_assoc, singleton_append,
    dropWhile_append]
  split
  · simp_all
  · simp

/-- A reference to an output of the named layer. -/
def RefersTo (ref name : String) : Prop :=
  ':' ∉ name.toList ∧ trim name = name ∧ ∃ number : String, ':' ∉ number.toList ∧ ref = name ++ ":" ++ number

theorem toList_trim {s : String} (h : trim s = s) : trimBy isBlank s.toList = s.toList := by
  simpa [trim] using congrArg String.toList h

theorem referent_of_refersTo {ref name : String} (h : RefersTo ref name) : referent ref = name := by
  obtain ⟨hname, htrim, number, hnumber, rfl⟩ := h
  have hchars : (name ++ ":" ++ number).toList = name.toList ++ ':' :: number.toList := by simp
  rw [referent, trim, hchars, trimBy_append (toList_trim htrim) (by decide), split, String.toList_ofList,
    splitChars_append hname,
    splitChars_of_not_mem]
  · simp
  · exact fun h => hnumber (mem_reverse.mp ((dropWhile_sublist _).mem (mem_reverse.mp h)))

end Text

namespace Outline

open DepthFirst Text

variable {d : Draft} {name parent : String} {done : List String} {cs : List (List String)}

theorem attach_cases (name parent : String) (cs : List (List String)) : attach name parent cs = cs ++ [[name]] ∨
    ∃ pre c post, cs = pre ++ c :: post ∧ c.getLast? = some parent ∧
      attach name parent cs = pre ++ (c ++ [name]) :: post := by
  induction cs with
  | nil => exact .inl rfl
  | cons c cs ih =>
    rw [attach]
    by_cases hc : c.getLast? = some parent
    · exact .inr ⟨[], c, cs, rfl, hc, if_pos hc⟩
    · rw [if_neg hc]
      rcases ih with ih | ⟨pre, w, post, rfl, hw, ih⟩
      · exact .inl (by rw [ih]; rfl)
      · exact .inr ⟨c :: pre, w, post, rfl, hw, by rw [ih]; rfl⟩

/-- The second layer reads the first and nothing else. -/
def ReadsOnly (d : Draft) (a b : String) : Prop :=
  ∃ l ref, d.layers.find? b = some l ∧ l.layer.inputs = [ref] ∧ referent ref = a

/-- The chains of the layers that have been placed. -/
structure Chained (d : Draft) (done : List String) (cs : List (List String)) : Prop where
  perm : cs.flatten.Perm done
  linked : ∀ c ∈ cs, c.IsChain (ReadsOnly d)
  first : SourcesFirst d.sourcesOf cs.flatten

theorem Chained.start (h : Chained d done cs) (hname : ∀ p ∈ d.sourcesOf name, p ∈ done) :
    Chained d (done ++ [name]) (cs ++ [[name]]) := by
  have hflat : (cs ++ [[name]]).flatten = cs.flatten ++ [name] := by simp
  refine ⟨hflat ▸ h.perm.append_right _, fun c hc => ?_, hflat ▸ ?_⟩
  · rcases mem_append.mp hc with hc | hc
    · exact h.linked c hc
    · rw [mem_singleton.mp hc]
      exact .singleton _
  · exact SourcesFirst.insert (by rw [append_nil]; exact h.first) fun p hp => h.perm.mem_iff.mpr (hname p hp)

theorem Chained.grow {c : List String} {pre post : List (List String)} (h : Chained d done (pre ++ c :: post))
    (hc : c.getLast? = some parent) (hname : ReadsOnly d parent name) :
    Chained d (done ++ [name]) (pre ++ (c ++ [name]) :: post) := by
  have hflat : (pre ++ (c ++ [name]) :: post).flatten = (pre.flatten ++ c) ++ name :: post.flatten := by simp
  have hold : (pre ++ c :: post).flatten = (pre.flatten ++ c) ++ post.flatten := by simp
  refine ⟨?_, fun w hw => ?_, hflat ▸ SourcesFirst.insert (hold ▸ h.first) fun p hp => ?_⟩
  · rw [hflat]
    exact perm_middle.trans ((hold ▸ h.perm.cons name).trans (perm_append_singleton ..).symm)
  · rcases mem_append.mp hw with hw | hw
    · exact h.linked w (mem_append_left _ hw)
    rcases mem_cons.mp hw with rfl | hw
    · refine isChain_append.mpr ⟨h.linked c (by simp), .singleton _, ?_⟩
      simpa [hc] using hname
    · exact h.linked w (by simp [hw])
  · obtain ⟨l, ref, hl, hinputs, hparent⟩ := hname
    have hp : p = parent := by
      rw [Draft.sourcesOf, hl] at hp
      simpa [hinputs, hparent] using (mem_filter.mp hp).1
    exact mem_append_right _ (hp ▸ mem_of_getLast? hc)

theorem Chained.place (h : Chained d done cs) (hname : ∀ p ∈ d.sourcesOf name, p ∈ done) :
    Chained d (done ++ [name]) (place d cs name) := by
  unfold Outline.place
  split
  · rename_i ref hinputs
    obtain ⟨l, hl, hinputs⟩ := Option.map_eq_some_iff.mp hinputs
    rcases attach_cases name (referent ref) cs with hnew | ⟨pre, c, post, rfl, hc, hgrown⟩
    · exact hnew ▸ h.start hname
    · exact hgrown ▸ h.grow hc ⟨l, ref, hl, hinputs, rfl⟩
  · exact h.start hname

theorem foldl_place (h : SourcesFirst d.sourcesOf done) : Chained d done (done.foldl (Outline.place d) []) := by
  induction done using reverseRecOn with
  | nil => exact ⟨.nil, by simp, by simp [SourcesFirst]⟩
  | append_singleton done name ih =>
    rw [foldl_append]
    exact (ih fun pre a post hsplit => h pre a (post ++ [name]) (by simp [hsplit])).place (h done name [] rfl)

/-- The statements of the layers, in the order of the concatenated chains, make up the text. -/
def Written (d : Draft) (f : Family) (text : String) : Prop :=
  ∃ blocks : List (List String), (chains d).flatten.mapM (fun n => do layerStatement d 2 (← d.get n)) =
    .ok blocks.flatten ∧
    blocks.map List.length = (chains d).map List.length ∧
    text = importLine f 0 ++ classLine f 0 d.name ++ setupLine 1 ++
      join "\n\n" (blocks.map fun ls => dropEnd 1 (String.join ls))

theorem write_written {f : Family} {text : String} (h : write d f = .ok text) : Written d f text := by
  obtain ⟨texts, htexts, ⟨⟩⟩ := bind_cases h
  clear h
  rw [mapM_eq_ok_iff] at htexts
  unfold Written
  generalize chains d = cs at htexts ⊢
  suffices hsuf : ∃ blocks : List (List String), cs.flatten.mapM (fun n => do layerStatement d 2 (← d.get n)) =
      .ok blocks.flatten ∧ blocks.map length = cs.map length ∧
        texts = blocks.map fun ls => dropEnd 1 (String.join ls) by
    obtain ⟨blocks, hblocks, hlengths, rfl⟩ := hsuf
    exact ⟨blocks, hblocks, hlengths, rfl⟩
  induction htexts with
  | nil => exact ⟨[], rfl, rfl, rfl⟩
  | cons hc _ ih =>
    obtain ⟨ls, hls, ⟨⟩⟩ := bind_cases hc
    obtain ⟨blocks, hblocks, hlengths, rfl⟩ := ih
    rw [mapM_eq_ok_iff] at hls hblocks
    refine ⟨ls :: blocks, ?_, by simp [hls.length_eq, hlengths], rfl⟩
    rw [flatten_cons, mapM_eq_ok_iff]
    exact rel_append hls hblocks

/-- The layers that a layer reads. -/
def Reads (d : Draft) (name p : String) : Prop :=
  ∃ l, d.layers.find? name = some l ∧ ∃ ref ∈ l.layer.inputs, RefersTo ref p

/-- Every layer is in one chain, behind all layers that it reads. Inside a chain every layer reads the one before
it, and no other. -/
theorem chains_follow_inputs (hkeys : d.layers.keys.Nodup) (hrefs : ∀ name l, d.layers.find? name = some l →
      ∀ ref ∈ l.layer.inputs, ∃ p ∈ d.layers.keys, RefersTo ref p)
    (hacyclic : ∀ name, ¬Relation.TransGen (Reads d) name name) :
    (chains d).flatten.Perm d.layers.keys ∧
    (∀ c ∈ chains d, c.IsChain fun a b => ∃ l ref, d.layers.find? b = some l ∧ l.layer.inputs = [ref] ∧
    RefersTo ref a) ∧
    (∀ pre name post, (chains d).flatten = pre ++ name :: post → ∀ p, Reads d name p → p ∈ pre) ∧
    ∀ f text, write d f = .ok text → Written d f text := by
  have hreads {name p : String} : p ∈ d.sourcesOf name ↔ Reads d name p := by
    rw [Draft.sourcesOf, Reads]
    cases hl : d.layers.find? name with
    | none => simp
    | some l =>
      simp only [Option.elim_some, Draft.sources, mem_filter, mem_map, Option.some.injEq, exists_eq_left']
      constructor
      · rintro ⟨⟨ref, href, rfl⟩, -⟩
        obtain ⟨p, -, hp⟩ := hrefs name l hl ref href
        exact ⟨ref, href, (referent_of_refersTo hp).symm ▸ hp⟩
      · rintro ⟨ref, href, hp⟩
        obtain ⟨q, hq, href'⟩ := hrefs name l hl ref href
        have hpq : p = q := (referent_of_refersTo hp).symm.trans (referent_of_refersTo href')
        exact ⟨⟨ref, href, referent_of_refersTo hp⟩, (Table.contains_iff _ _).mpr (hpq ▸ hq)⟩
  have harranges := d.arranges_sorted.2
  have hchained := foldl_place (harranges.first fun name _ hloop =>
    hacyclic name (.mono (fun _ _ => hreads.mp) _ _ hloop))
  refine ⟨hchained.perm.trans ?_, fun c hc => (hchained.linked c hc).imp ?_, fun pre name post hsplit p hp => ?_,
    fun f text => write_written⟩
  · exact (perm_ext_iff_of_nodup harranges.nodup hkeys).mpr harranges.mem
  · rintro a b ⟨l, ref, hl, hinputs, rfl⟩
    obtain ⟨p, -, hp⟩ := hrefs b l hl ref (by simp [hinputs])
    exact ⟨l, ref, hl, hinputs, referent_of_refersTo hp ▸ hp⟩
  · exact hchained.first pre name post hsplit p (hreads.mpr hp)

def joined : Draft :=
  .ofLayers "Net" ([("x", []), ("y", ["x:0"]), ("j", ["x:0", "y:0"])].map fun l =>
    { layer := { name := l.1, inputs := l.2 } })

theorem chains_follow_inputs_joined : chains joined = [["x", "y"], ["j"]] ∧
    (chains joined).flatten.Perm joined.layers.keys ∧
    ∀ pre name post, (chains joined).flatten = pre ++ name :: post → ∀ p, Reads joined name p → p ∈ pre := by
  have hx : RefersTo "x:0" "x" := ⟨by decide, rfl, "0", by decide, rfl⟩
  have hy : RefersTo "y:0" "y" := ⟨by decide, rfl, "0", by decide, rfl⟩
  have hkeys : joined.layers.keys.Nodup := by decide
  have hrefs {name ref : String} {l : DraftLayer} (hl : joined.layers.find? name = some l)
    (href : ref ∈ l.layer.inputs) :
      ref = "x:0" ∧ (name = "y" ∨ name = "j") ∨ ref = "y:0" ∧ name = "j" := by
    have hentry := mem_map_of_mem (f := fun e : String × DraftLayer => (e.1, e.2.layer.inputs))
      ((Table.find?_eq_some_iff hkeys).mp hl)
    rw [show joined.layers.entries.map (fun e => (e.1, e.2.layer.inputs)) =
      [("x", []), ("y", ["x:0"]), ("j", ["x:0", "y:0"])] from rfl] at hentry
    simp only [mem_cons, Prod.mk.injEq, not_mem_nil, or_false] at hentry
    rcases hentry with ⟨rfl, h⟩ | ⟨rfl, h⟩ | ⟨rfl, h⟩ <;> rw [h] at href <;> simp_all
  have hknown (name : String) (l : DraftLayer) (hl : joined.layers.find? name = some l) (ref : String)
      (href : ref ∈ l.layer.inputs) : ∃ p ∈ joined.layers.keys, RefersTo ref p := by
    rcases hrefs hl href with ⟨rfl, -⟩ | ⟨rfl, -⟩
    · exact ⟨"x", by decide, hx⟩
    · exact ⟨"y", by decide, hy⟩
  have hlower (name p : String) (h : Reads joined name p) : ["x", "y", "j"].idxOf p < ["x", "y", "j"].idxOf name := by
    obtain ⟨l, hl, ref, href, hp⟩ := h
    rw [← referent_of_refersTo hp]
    rcases hrefs hl href with ⟨rfl, rfl | rfl⟩ | ⟨rfl, rfl⟩ <;> decide
  obtain ⟨hperm, -, hfirst, -⟩ := chains_follow_inputs hkeys hknown (DepthFirst.irrefl_of_rank hlower)
  exact ⟨by decide, hperm, hfirst⟩

end Outline

end NetBridge
