import ChainIndexer.Url.Basic

/-
  Escapes, and the bytes that a text stands for.

  An escape is a percent sign with two hexadecimal digits behind it. Characters that cannot stand in
  a path are written as escapes of their bytes, and escapes that are there already stay as they are.
  So decoding does not see whether a text has been encoded for a path (`percentDecode_encode`), and
  a text stands for its own bytes exactly if it has no escapes (`percentDecode_eq_bytes_iff`).
-/

namespace ChainIndexer.Url

open Text

variable {cs rest : List Char} {c h l : Char} {inSet : Char → Bool}

/-! ## Escapes -/

/-- Two hexadecimal digits are in front. -/
def BeginsWithByte (cs : List Char) : Prop :=
  ∃ h l rest, cs = h :: l :: rest ∧ (hexValue? h).isSome ∧ (hexValue? l).isSome

/-- There is a percent sign with two hexadecimal digits behind it. -/
def HasEscape (cs : List Char) : Prop :=
  ∃ before after, cs = before ++ '%' :: after ∧ BeginsWithByte after

/-- The bytes of characters. -/
def characterBytes (cs : List Char) : Bytes :=
  cs.flatMap String.utf8EncodeChar

theorem hasEscape_cons :
    HasEscape (c :: rest) ↔ c = '%' ∧ BeginsWithByte rest ∨ HasEscape rest := by
  constructor
  · rintro ⟨before, after, hs, hb⟩
    cases before with
    | nil =>
      obtain ⟨rfl, rfl⟩ := List.cons.inj hs
      exact .inl ⟨rfl, hb⟩
    | cons d before =>
      exact .inr ⟨before, after, (List.cons.inj hs).2, hb⟩
  · rintro (⟨rfl, hb⟩ | ⟨before, after, rfl, hb⟩)
    · exact ⟨[], rest, rfl, hb⟩
    · exact ⟨c :: before, after, rfl, hb⟩

/-! ## Decoding -/

theorem percentDecode_escape {x y : Nat} (hx : hexValue? h = some x) (hy : hexValue? l = some y) :
    percentDecode ('%' :: h :: l :: rest) = UInt8.ofNat (x * 16 + y) :: percentDecode rest := by
  rw [percentDecode, hx, hy]

theorem percentDecode_cons (hc : c = '%' → ¬BeginsWithByte rest) :
    percentDecode (c :: rest) = String.utf8EncodeChar c ++ percentDecode rest := by
  rw [percentDecode.eq_def]
  split
  · rename_i heq
    cases heq
  · rename_i h l after heq
    obtain ⟨rfl, rfl⟩ := List.cons.inj heq
    split
    · rename_i x y hx hy
      refine absurd ⟨h, l, after, rfl, ?_, ?_⟩ (hc rfl)
      · rw [hx, Option.isSome_some]
      · rw [hy, Option.isSome_some]
    · rfl
  · rename_i heq
    obtain ⟨rfl, rfl⟩ := List.cons.inj heq
    rfl

/-- A text is empty, or begins with an escape, or with a character that begins none. -/
theorem decoding_induction {motive : List Char → Prop} (nil : motive [])
    (escape : ∀ h l rest x y, hexValue? h = some x → hexValue? l = some y → motive rest →
      motive ('%' :: h :: l :: rest))
    (cons : ∀ c rest, (c = '%' → ¬BeginsWithByte rest) → motive rest → motive (c :: rest))
    (cs : List Char) : motive cs := by
  match cs with
  | [] => exact nil
  | c :: rest =>
    by_cases hb : c = '%' ∧ BeginsWithByte rest
    · obtain ⟨rfl, h, l, after, rfl, hh, hl⟩ := hb
      obtain ⟨x, hx⟩ := Option.isSome_iff_exists.1 hh
      obtain ⟨y, hy⟩ := Option.isSome_iff_exists.1 hl
      exact escape h l after x y hx hy (decoding_induction nil escape cons after)
    · exact cons c rest (not_and.1 hb) (decoding_induction nil escape cons rest)
termination_by cs.length

/-! ## Encoding for a path -/

theorem toList_encode (inSet : Char → Bool) (cs : List Char) :
    (encode inSet cs).toList = cs.flatMap (encodeChar inSet) :=
  String.toList_ofList

/-- The two digits of a byte are read as the byte. -/
theorem percentDecode_percentByte (b : UInt8) (rest : List Char) :
    percentDecode (percentByte b ++ rest) = b :: percentDecode rest := by
  have hd : ∀ n < 16, hexValue? ((hexDigits true).getD n '0') = some n := by decide
  have hb : b.toNat < 256 := b.toNat_lt
  unfold percentByte hexByte
  rw [List.cons_append, List.cons_append, List.cons_append, List.nil_append,
    percentDecode_escape (hd _ (by omega)) (hd _ (by omega)), Nat.div_add_mod', UInt8.ofNat_toNat]

theorem percentDecode_percentBytes (bs : Bytes) (rest : List Char) :
    percentDecode (bs.flatMap percentByte ++ rest) = bs ++ percentDecode rest := by
  induction bs with
  | nil => rfl
  | cons b bs ih =>
    rw [List.flatMap_cons, List.append_assoc, percentDecode_percentByte, ih, List.cons_append]

theorem encodeChar_of_false (hc : inSet c = false) : encodeChar inSet c = [c] :=
  if_neg (by simp [hc])

theorem encodeChar_of_true (hc : inSet c = true) :
    ∃ digits, encodeChar inSet c = '%' :: digits := by
  obtain ⟨b, bs, hs⟩ := List.exists_cons_of_ne_nil (String.utf8EncodeChar_ne_nil (c := c))
  refine ⟨hexByte true b ++ bs.flatMap percentByte, ?_⟩
  rw [encodeChar, if_pos hc, hs, List.flatMap_cons]
  rfl

theorem encodeChar_ne_nil (inSet : Char → Bool) (c : Char) : encodeChar inSet c ≠ [] := by
  cases hc : inSet c with
  | false => rw [encodeChar_of_false hc]; exact List.cons_ne_nil c []
  | true =>
    obtain ⟨digits, hd⟩ := encodeChar_of_true hc
    rw [hd]
    exact List.cons_ne_nil '%' digits

theorem toNat_of_hexValue? (h : (hexValue? c).isSome) :
    48 ≤ c.toNat ∧ c.toNat ≤ 57 ∨ 97 ≤ c.toNat ∧ c.toNat ≤ 102 ∨ 65 ≤ c.toNat ∧ c.toNat ≤ 70 := by
  unfold hexValue? at h
  split at h
  · rename_i hd
    exact .inl hd
  · split at h
    · rename_i hd
      exact .inr (.inl hd)
    · split at h
      · rename_i hd
        exact .inr (.inr hd)
      · cases h

/-- Hexadecimal digits may stand in a path. -/
theorem inPathSet_of_hexValue? (h : (hexValue? c).isSome) : inPathSet c = false := by
  have hn := toNat_of_hexValue? h
  have hc : isControl c = false := by
    rw [isControl, Bool.or_eq_false_iff, decide_eq_false_iff_not, decide_eq_false_iff_not]
    omega
  have hm : ∀ ds : List Char, ds.all (fun d => !(hexValue? d).isSome) = true →
      ds.contains c = false := by
    intro ds hd
    rw [Bool.eq_false_iff, ne_eq, List.contains_iff_mem]
    intro hm
    have hn := List.all_eq_true.1 hd c hm
    rw [h] at hn
    cases hn
  rw [inPathSet, inFragmentSet, hc, hm _ (by decide), hm _ (by decide)]
  rfl

/-- A digit in front of an encoded text stood there before, as what is encoded begins with a percent
sign. -/
theorem eq_of_encoded_digit {d : Char} {after : List Char}
    (hs : encodeChar inPathSet c ++ rest = d :: after) (hd : (hexValue? d).isSome) :
    d = c ∧ rest = after := by
  cases hc : inPathSet c with
  | false =>
    rw [encodeChar_of_false hc] at hs
    obtain ⟨rfl, rfl⟩ := List.cons.inj hs
    exact ⟨rfl, rfl⟩
  | true =>
    obtain ⟨digits, he⟩ := encodeChar_of_true hc
    rw [he] at hs
    rw [← (List.cons.inj hs).1] at hd
    exact absurd hd (by decide)

theorem beginsWithByte_of_encoded
    (h : BeginsWithByte (cs.flatMap (encodeChar inPathSet))) : BeginsWithByte cs := by
  obtain ⟨h, l, after, hs, hh, hl⟩ := h
  match cs with
  | [] => cases hs
  | c :: rest =>
    obtain ⟨rfl, hr⟩ := eq_of_encoded_digit hs hh
    match rest with
    | [] => cases hr
    | d :: rest =>
      obtain ⟨rfl, -⟩ := eq_of_encoded_digit hr hl
      exact ⟨h, l, rest, rfl, hh, hl⟩

/-- Decoding does not see whether a text has been encoded for a path. -/
theorem percentDecode_encode (cs : List Char) :
    percentDecode (encode inPathSet cs).toList = percentDecode cs := by
  rw [toList_encode]
  induction cs using decoding_induction with
  | nil => rfl
  | escape h l rest x y hx hy ih =>
    have hh : inPathSet h = false := inPathSet_of_hexValue? (hx ▸ rfl)
    have hl : inPathSet l = false := inPathSet_of_hexValue? (hy ▸ rfl)
    rw [List.flatMap_cons, List.flatMap_cons, List.flatMap_cons, encodeChar_of_false (by decide),
      encodeChar_of_false hh, encodeChar_of_false hl]
    rw [percentDecode_escape hx hy, ← ih]
    exact percentDecode_escape hx hy
  | cons c rest hc ih =>
    rw [percentDecode_cons hc, List.flatMap_cons, ← ih]
    cases hp : inPathSet c with
    | false =>
      rw [encodeChar_of_false hp]
      exact percentDecode_cons fun he hb => hc he (beginsWithByte_of_encoded hb)
    | true =>
      rw [encodeChar, if_pos hp, percentDecode_percentBytes]

/-! ## Bytes -/

theorem characterBytes_cons (c : Char) (rest : List Char) :
    characterBytes (c :: rest) = String.utf8EncodeChar c ++ characterBytes rest :=
  List.flatMap_cons

theorem length_utf8EncodeChar_pos (c : Char) : 0 < (String.utf8EncodeChar c).length :=
  List.length_pos_iff.2 String.utf8EncodeChar_ne_nil

theorem length_characterBytes_escape (h l : Char) (rest : List Char) :
    (characterBytes rest).length + 3 ≤ (characterBytes ('%' :: h :: l :: rest)).length := by
  have hh := length_utf8EncodeChar_pos h
  have hl := length_utf8EncodeChar_pos l
  have hp := length_utf8EncodeChar_pos '%'
  simp only [characterBytes_cons, List.length_append]
  omega

/-- Decoding makes no text longer than its bytes. -/
theorem length_percentDecode_le (cs : List Char) :
    (percentDecode cs).length ≤ (characterBytes cs).length := by
  induction cs using decoding_induction with
  | nil => simp [percentDecode]
  | escape h l rest x y hx hy ih =>
    have hb := length_characterBytes_escape h l rest
    rw [percentDecode_escape hx hy, List.length_cons]
    omega
  | cons c rest hc ih =>
    rw [percentDecode_cons hc, characterBytes_cons, List.length_append, List.length_append]
    exact Nat.add_le_add_left ih _

/-- A text stands for its own bytes exactly if it has no escapes. -/
theorem percentDecode_eq_bytes_iff : percentDecode cs = characterBytes cs ↔ ¬HasEscape cs := by
  induction cs using decoding_induction with
  | nil => simp [HasEscape, percentDecode, characterBytes]
  | escape h l rest x y hx hy ih =>
    refine iff_of_false (fun he => ?_) (not_not_intro ?_)
    · have hl := congrArg List.length he
      have hb := length_characterBytes_escape h l rest
      have hr := length_percentDecode_le rest
      rw [percentDecode_escape hx hy, List.length_cons] at hl
      omega
    · exact ⟨[], _, rfl, h, l, rest, rfl, hx ▸ rfl, hy ▸ rfl⟩
  | cons c rest hc ih =>
    rw [percentDecode_cons hc, characterBytes_cons, List.append_right_inj, ih, hasEscape_cons,
      not_or, not_and]
    exact (and_iff_right hc).symm

end ChainIndexer.Url
