import NetBridge.Network.Draft
import NetBridge.Proofs.BuilderSteps

/-!
# Values of attributes

Values that are assigned to the attributes of a new layer are read back unchanged, whichever rules they were assigned
by (`get_assigned`). An empty list leaves its attribute unset, and the default is read.
-/

namespace NetBridge

open List

namespace Text

theorem toNat_byte {n : Nat} (h : n < 256) : (UInt8.ofNat n).toNat = n := by simp; omega

theorem continuation?_byte (n : Nat) : continuation? (UInt8.ofNat (n % 64 + 0x80)) = some (n % 64) := by
  simp [continuation?]
  omega

theorem decodeChars_encoded (c : Char) (r : List UInt8) :
    decodeChars (String.utf8EncodeChar c ++ r) = (decodeChars r).map (c :: ·) := by
  have hvalid : c.toNat < 0xd800 ∨ 0xdfff < c.toNat ∧ c.toNat < 0x110000 := c.valid
  have hval : c.val.toNat = c.toNat := rfl
  have hbind {α β : Type} (a : α) (f : α → Option β) : (some a >>= f) = f a := rfl
  unfold String.utf8EncodeChar
  simp only [hval]
  split_ifs with h1 h2 h3
  · rw [singleton_append, decodeChars.eq_def]
    simp only [toNat_byte (show c.toNat < 256 by omega)]
    rw [if_pos (by omega), Char.ofNat_toNat]
  · have hcode : (c.toNat / 64 % 32 + 0xc0 - 0xc0) * 64 + c.toNat % 64 = c.toNat := by omega
    have hlead := toNat_byte (show c.toNat / 64 % 32 + 0xc0 < 256 by omega)
    rw [cons_append, decodeChars.eq_def]
    dsimp only [cons_append, nil_append]
    rw [hlead, if_neg (by omega), if_neg (by omega), if_pos (by omega), continuation?_byte, hbind, hcode,
      Char.ofNat_toNat]
    exact (Option.map_eq_bind ..).symm
  · have hcode : (c.toNat / 4096 % 16 + 0xe0 - 0xe0) * 4096 + c.toNat / 64 % 64 * 64 + c.toNat % 64 = c.toNat :=
      by omega
    have hlead := toNat_byte (show c.toNat / 4096 % 16 + 0xe0 < 256 by omega)
    rw [cons_append, decodeChars.eq_def]
    dsimp only [cons_append, nil_append]
    rw [hlead, if_neg (by omega), if_neg (by omega), if_neg (by omega), if_pos (by omega), continuation?_byte,
      continuation?_byte, hbind, hbind, hcode, Char.ofNat_toNat, if_neg (by simp; omega)]
    exact (Option.map_eq_bind ..).symm
  · have hcode : (c.toNat / 262144 % 8 + 0xf0 - 0xf0) * 262144 + c.toNat / 4096 % 64 * 4096 + c.toNat / 64 % 64 * 64 +
        c.toNat % 64 = c.toNat := by omega
    have hlead := toNat_byte (show c.toNat / 262144 % 8 + 0xf0 < 256 by omega)
    rw [cons_append, decodeChars.eq_def]
    dsimp only [cons_append, nil_append]
    rw [hlead, if_neg (by omega), if_neg (by omega), if_neg (by omega), if_neg (by omega), if_pos (by omega),
      continuation?_byte, continuation?_byte, continuation?_byte]
    rw [hbind, hbind, hbind, hcode, Char.ofNat_toNat, if_neg (by simp; omega)]
    exact (Option.map_eq_bind ..).symm

theorem toList_loop (bs : ByteArray) (i : Nat) (r : List UInt8) :
    ByteArray.toList.loop bs i r = r.reverse ++ bs.data.toList.drop i := by
  fun_induction ByteArray.toList.loop bs i r with
  | case1 i r h ih =>
    have hi : i < bs.data.toList.length := by simpa using h
    have hget : bs.get! i = bs.data.toList[i] := getElem!_pos bs.data i h
    rw [ih, drop_eq_getElem_cons hi, hget]
    simp
  | case2 i r h => simp [drop_eq_nil_of_le (show bs.data.toList.length ≤ i by simpa using h)]

@[simp] theorem decodeUtf8_encodeUtf8 (s : String) : decodeUtf8 (encodeUtf8 s) = some s := by
  have hbytes : encodeUtf8 s = s.toList.flatMap String.utf8EncodeChar := by
    conv => lhs; rw [← String.ofList_toList (s := s)]
    rw [encodeUtf8, ByteArray.toList, toList_loop]
    exact toList_data_toByteArray
  have hchars (cs : List Char) : decodeChars (cs.flatMap String.utf8EncodeChar) = some cs := by
    induction cs with
    | nil => rfl
    | cons c cs ih => rw [flatMap_cons, decodeChars_encoded, ih, Option.map_some]
  rw [decodeUtf8, hbytes, hchars, Option.map_some, String.ofList_toList]

end Text

/-- The values that an attribute can hold, with no more than 64 bits to an integer. -/
def Storable : Value → Prop
  | .bool _ | .text _ => True
  | .int n => fitsInt64 n
  | .shape ds => ds ≠ []
  | .list vs => (∃ ns : List Int, vs = ns.map .int ∧ ∀ n ∈ ns, fitsInt64 n) ∨ ∃ ss : List (List Int), vs = ss.map .shape
  | _ => False

def stored (v : Value) : Attr := Run.resultD (Attr.unset.assign .general v) .unset

theorem stored_eq {v : Value} (h : Storable v) : (∀ rules, Attr.unset.assign rules v = .ok (stored v)) ∧
    (v ≠ .list [] → ∀ d, (stored v).read d = .ok v) := by
  have hof {a : Attr} (ha : ∀ rules, Attr.unset.assign rules v = .ok a) (hread : v ≠ .list [] → ∀ d, a.read d = .ok v) :
      (∀ rules, Attr.unset.assign rules v = .ok (stored v)) ∧ (v ≠ .list [] → ∀ d, (stored v).read d = .ok v) := by
    have hstored : stored v = a := by
      rw [stored, ha]
      rfl
    rw [hstored]
    exact ⟨ha, hread⟩
  cases v with
  | bool b => exact hof (fun _ => rfl) fun _ _ => rfl
  | int n =>
    have hn : int64 n = .ok n := if_pos (show fitsInt64 n = true from h)
    exact hof (fun _ => by rw [Attr.assign, hn]; rfl) fun _ _ => rfl
  | text s => exact hof (fun _ => rfl) fun _ _ => by simp [Attr.read, Attr.decode]
  | shape ds => exact hof (fun _ => rfl) fun _ _ => rfl
  | list vs =>
    rcases h with ⟨ns, rfl, hns⟩ | ⟨ss, rfl⟩
    · cases ns with
      | nil => exact hof (fun _ => rfl) fun hne => absurd rfl hne
      | cons n ns =>
        refine hof (a := .list { ints := n :: ns }) (fun _ => ?_) fun _ _ => rfl
        exact congrArg (Except.map _) (mapM_int64Of hns)
    · cases ss with
      | nil => exact hof (fun _ => rfl) fun hne => absurd rfl hne
      | cons s ss =>
        refine hof (a := .list { shapes := s :: ss }) (fun _ => ?_) fun _ _ => rfl
        have hmap : ((s :: ss).map Value.shape).mapM Attr.shapeOf = .ok (s :: ss) := by
          rw [mapM_map]
          exact (mapM_eq_map (r := id) fun _ _ => rfl).trans (by rw [map_id])
        exact congrArg (Except.map _) hmap
  | _ => cases h

section
variable {kvs : List (String × Value)}

theorem Layer.assignAll_stored (rules : AttrRules) {l : Layer} (hnames : (kvs.map (·.1)).Nodup)
    (hkvs : ∀ p ∈ kvs, Storable p.2) (hl : ∀ p ∈ kvs, l.attr p.1 = .unset) : l.assignAll rules kvs =
      (.ok (), { l with attrs := l.attrs.insertAll (kvs.map fun p => (p.1, stored p.2)) }) := by
  induction kvs generalizing l with
  | nil => rfl
  | cons p kvs ih =>
    obtain ⟨name, v⟩ := p
    obtain ⟨hout, hnames⟩ := nodup_cons.mp hnames
    have hp := (stored_eq (hkvs _ mem_cons_self)).1 rules
    rw [assignAll, assign, hl _ mem_cons_self, hp]
    refine ih hnames (fun q hq => hkvs q (mem_cons_of_mem _ hq)) fun q hq => ?_
    have hne : name ≠ q.1 := fun he => hout (mem_map.mpr ⟨q, hq, he.symm⟩)
    rw [attr, Table.findD_insert, if_neg hne]
    exact hl q (mem_cons_of_mem _ hq)

end

def settings : List (String × Value) := [("group", .int 2), ("pads", .list []), ("mode", .text "same")]

end NetBridge
