import ChainIndexer.Proofs.Wire.Varint
import ChainIndexer.Wire.Record

/-
  The values of fields, written and read.

  A field is written as its key and its value. A value that is no message is read as it was written
  (`readPlain_writeValue`), and what is read is a value of its content (`plain_of_readPlain`). Only
  a negative number of 32 bits may take more room than what was read for it, and never more than
  twice as much.
-/

namespace ChainIndexer.Wire

open Outcome Text

variable {n : Nat} {c : Content} {rule : FieldRule} {form : WireType} {f : Field} {bs rest : Bytes}

/-! ## Texts -/

theorem loop_toList (bs : ByteArray) (i : Nat) (before : Bytes) :
    ByteArray.toList.loop bs i before = before.reverse ++ bs.data.toList.drop i := by
  fun_induction ByteArray.toList.loop bs i before with
  | case1 i before h ih =>
    have hi : i < bs.data.toList.length := by simpa using h
    have hb : bs.get! i = bs.data.toList[i] := by simp [ByteArray.get!, h]
    rw [ih, List.drop_eq_getElem_cons hi, hb, List.reverse_cons, List.append_assoc,
      List.singleton_append]
  | case2 i before h =>
    have hi : bs.data.toList.length ≤ i := by simpa using h
    rw [List.drop_eq_nil_of_le hi, List.append_nil]

theorem toList_data (bs : ByteArray) : bs.toList = bs.data.toList := by
  unfold ByteArray.toList
  rw [loop_toList]
  rfl

theorem textOfBytes?_toUTF8 (s : String) : textOfBytes? s.toUTF8.toList = some s := by
  unfold textOfBytes? String.fromUTF8?
  rw [toList_data]
  exact dif_pos s.isValidUTF8

theorem toUTF8_of_textOfBytes? {s : String} (h : textOfBytes? bs = some s) :
    s.toUTF8.toList = bs := by
  unfold textOfBytes? String.fromUTF8? at h
  split at h
  · cases h
    rw [toList_data]
    rfl
  · cases h

/-! ## Words -/

theorem narrowWord_lt (c : Content) (h : n < 2 ^ 64) : narrowWord c n < 2 ^ 64 := by
  unfold narrowWord
  split
  · omega
  · dsimp only
    split
    · omega
    · omega
  · split
    · omega
    · omega
  · exact h

theorem narrowWord_narrowWord (c : Content) (n : Nat) :
    narrowWord c (narrowWord c n) = narrowWord c n := by
  cases c with
  | word32 => simp only [narrowWord]; omega
  | signed32 =>
    simp only [narrowWord]
    split
    · rw [if_pos (by omega)]
      omega
    · rw [if_neg (by omega)]
      omega
  | flag =>
    simp only [narrowWord]
    split
    · rfl
    · rfl
  | word64 => rfl
  | text => rfl
  | bytes => rfl
  | message part => rfl

/-- Only a negative number becomes longer when it is narrowed: ten bytes for no fewer than five. -/
theorem writeVarint_length_narrowWord (c : Content) (h : n < 2 ^ 64) :
    (writeVarint (narrowWord c n)).length ≤ 2 * (writeVarint n).length := by
  by_cases hl : narrowWord c n ≤ n
  · have hm := writeVarint_length_mono hl
    omega
  · have hw := (writeVarint_length_le_iff _ 9).2
      (Nat.lt_of_lt_of_le (narrowWord_lt c h) (by decide))
    have hn : ¬(writeVarint n).length ≤ 3 + 1 := by
      rw [writeVarint_length_le_iff]
      intro hs
      apply hl
      unfold narrowWord
      split
      · omega
      · dsimp only
        split
        · omega
        · omega
      · split
        · omega
        · omega
      · exact Nat.le_refl _
    omega

/-! ## Plain values -/

/-- The form in which a field is written. -/
def Field.wireType : Field → WireType
  | .word _ _ => .varint
  | _ => .lengthDelimited

/-- The bytes of a field behind its key. -/
def writeValue : Field → Bytes
  | .word _ value => writeVarint value
  | .text _ value => writeDelimited value.toUTF8.toList
  | .bytes _ value => writeDelimited value
  | .message _ fields => writeDelimited (encode fields)

theorem encodeField_eq (f : Field) : encodeField f = writeKey f.tag f.wireType ++ writeValue f := by
  cases f with
  | word tag value => rw [encodeField]; rfl
  | text tag value => rw [encodeField]; rfl
  | bytes tag value => rw [encodeField]; rfl
  | message tag fields => rw [encodeField]; rfl

/-- The values of a content that is no message. -/
inductive Plain : Content → Field → Prop
  | text (tag : Nat) (value : String) : Plain .text (.text tag value)
  | bytes (tag : Nat) (value : Bytes) : Plain .bytes (.bytes tag value)
  | word {c : Content} {value : Nat} (form : c.wireType = .varint) (small : value < 2 ^ 64)
      (kept : narrowWord c value = value) (tag : Nat) : Plain c (.word tag value)

theorem ne_message_of_plain (h : Plain c f) (part : MessageType) : c ≠ .message part := by
  rintro rfl
  cases h with
  | word form => cases form

theorem writeDelimited_length_le (value : Bytes) :
    value.length ≤ (writeDelimited value).length := by
  unfold writeDelimited
  rw [List.length_append]
  exact Nat.le_add_left _ _

theorem readPlain_text (hc : rule.content = .text) (bs : Bytes) :
    readPlain rule .lengthDelimited bs = readLength bs >>= fun p =>
      match textOfBytes? (p.2.take p.1) with
      | some s => .ok (.text rule.tag s, p.2.drop p.1)
      | none => .error .notUtf8 := by
  simp only [readPlain, hc]
  rfl

theorem readPlain_bytes (hc : rule.content = .bytes) (bs : Bytes) :
    readPlain rule .lengthDelimited bs = readLength bs >>= fun p =>
      .ok (.bytes rule.tag (p.2.take p.1), p.2.drop p.1) := by
  simp only [readPlain, hc]
  rfl

theorem readPlain_word (hc : rule.content.wireType = .varint) (bs : Bytes) :
    readPlain rule .varint bs = readVarint bs >>= fun p =>
      .ok (.word rule.tag (narrowWord rule.content p.1), p.2) := by
  obtain ⟨tag, name, content, label⟩ := rule
  cases content with
  | word64 => rfl
  | word32 => rfl
  | signed32 => rfl
  | flag => rfl
  | text => cases hc
  | bytes => cases hc
  | message part => cases hc

theorem wireType_of_readPlain {x : Field × Bytes} (h : readPlain rule form bs = .ok x) :
    form = rule.content.wireType := by
  by_contra hf
  simp only [readPlain, if_pos hf] at h
  cases h

/-- A value that is no message is read as it was written. -/
theorem readPlain_writeValue (h : Plain rule.content f) (ht : f.tag = rule.tag)
    (hl : (writeValue f).length < 2 ^ 64) (rest : Bytes) :
    readPlain rule f.wireType (writeValue f ++ rest) = .ok (f, rest) := by
  generalize hc : rule.content = c at h
  cases h with
  | text tag value =>
    obtain rfl : tag = rule.tag := ht
    have hs := Nat.lt_of_le_of_lt (writeDelimited_length_le _) hl
    refine (readPlain_text hc _).trans ?_
    simp only [writeValue, readLength_writeDelimited hs, bind, Except.bind, List.take_left,
      List.drop_left, textOfBytes?_toUTF8]
  | bytes tag value =>
    obtain rfl : tag = rule.tag := ht
    have hs := Nat.lt_of_le_of_lt (writeDelimited_length_le _) hl
    refine (readPlain_bytes hc _).trans ?_
    simp only [writeValue, readLength_writeDelimited hs, bind, Except.bind, List.take_left,
      List.drop_left]
  | word hw small kept tag =>
    obtain rfl : tag = rule.tag := ht
    refine (readPlain_word (hc ▸ hw) _).trans ?_
    simp only [writeValue, readVarint_writeVarint small, bind, Except.bind, hc, kept]

/-- What is read is a plain value in the form of its content. -/
theorem plain_of_readPlain (hm : ∀ part, rule.content ≠ .message part)
    (h : readPlain rule form bs = .ok (f, rest)) :
    f.tag = rule.tag ∧ f.wireType = form ∧ Plain rule.content f ∧
      (writeValue f).length + 2 * rest.length ≤ 2 * bs.length := by
  obtain rfl := wireType_of_readPlain h
  by_cases hw : rule.content.wireType = .varint
  · rw [hw, readPlain_word hw] at h
    obtain ⟨⟨n, rest'⟩, hr, he⟩ := bind_eq_ok.1 h
    cases he
    obtain ⟨hs, hl⟩ := le_of_readVarint hr
    refine ⟨rfl, hw.symm, ?_, ?_⟩
    · exact .word hw (narrowWord_lt _ hs) (narrowWord_narrowWord _ n) _
    · have hn := writeVarint_length_narrowWord rule.content hs
      simp only [writeValue]
      omega
  cases hc : rule.content with
  | text =>
    rw [hc, Content.wireType, readPlain_text hc] at h
    obtain ⟨⟨n, rest'⟩, hr, he⟩ := bind_eq_ok.1 h
    obtain ⟨hn, hl⟩ := le_of_readLength hr
    simp only at he
    split at he
    · rename_i value ht
      cases he
      refine ⟨rfl, rfl, .text _ _, ?_⟩
      simp only [writeValue, toUTF8_of_textOfBytes? ht, writeDelimited, List.length_append,
        List.length_take, List.length_drop, Nat.min_eq_left hn]
      omega
    · cases he
  | bytes =>
    rw [hc, Content.wireType, readPlain_bytes hc] at h
    obtain ⟨⟨n, rest'⟩, hr, he⟩ := bind_eq_ok.1 h
    obtain ⟨hn, hl⟩ := le_of_readLength hr
    cases he
    refine ⟨rfl, rfl, .bytes _ _, ?_⟩
    simp only [writeValue, writeDelimited, List.length_append, List.length_take, List.length_drop,
      Nat.min_eq_left hn]
    omega
  | message part => exact absurd hc (hm part)
  | word64 => exact absurd (congrArg Content.wireType hc) hw
  | word32 => exact absurd (congrArg Content.wireType hc) hw
  | signed32 => exact absurd (congrArg Content.wireType hc) hw
  | flag => exact absurd (congrArg Content.wireType hc) hw

end ChainIndexer.Wire
