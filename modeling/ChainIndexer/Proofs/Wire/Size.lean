import ChainIndexer.Proofs.Wire.Canonical

/-
  How much room a record takes.

  A record may take more room than the bytes that it was read from: a negative number of 32 bits is
  written with ten bytes, however it was read, and parts that are merged have one length instead of
  two. But it never takes more than twice as much (`length_of_decode`).
-/

namespace ChainIndexer.Wire

open Outcome Text

variable {type : MessageType} {depth stop : Nat} {rule : FieldRule} {f : Field}
  {record out : Record} {bs tail : Bytes}

theorem length_encodeField (f : Field) :
    (encodeField f).length = (writeKey f.tag f.wireType).length + (writeValue f).length := by
  rw [encodeField_eq, List.length_append]

theorem length_encodeField_pos (f : Field) : 0 < (encodeField f).length := by
  have hw := writeKey_length_pos f.tag f.wireType
  rw [length_encodeField]
  omega

/-- A part takes less room than the field that holds it. -/
theorem length_encode_lt {fields : Record} (h : f = .message f.tag fields) :
    (encode fields).length < (encodeField f).length := by
  have hw := writeKey_length_pos f.tag f.wireType
  have hv := writeDelimited_length_le (encode fields)
  rw [length_encodeField]
  rw [h] at hw ⊢
  rw [writeValue]
  omega

theorem length_encode_cons (f : Field) (record : Record) :
    (encode (f :: record)).length = (encodeField f).length + (encode record).length := by
  rw [encode, List.length_append]

theorem length_encode_insertField (f : Field) (record : Record) :
    (encode (insertField f record)).length = (encodeField f).length + (encode record).length := by
  induction record with
  | nil => exact length_encode_cons f []
  | cons g rest ih =>
    simp only [insertField]
    split
    · rw [length_encode_cons, ih, length_encode_cons]
      omega
    · exact length_encode_cons f _

theorem length_encode_remaining_le (rule : FieldRule) (record : Record) :
    (encode (remaining rule record)).length ≤ (encode record).length := by
  unfold remaining
  induction record with
  | nil => exact Nat.le_refl _
  | cons g rest ih =>
    rw [List.filter_cons, length_encode_cons]
    split
    · rw [length_encode_cons]
      omega
    · omega

/-- A field that gives way leaves its room. -/
theorem length_encode_remaining_of_mem (hf : f ∈ record) (hd : f.tag ∈ rule.displaced) :
    (encodeField f).length + (encode (remaining rule record)).length ≤ (encode record).length := by
  induction record with
  | nil => cases hf
  | cons g rest ih =>
    rw [length_encode_cons]
    rcases List.mem_cons.1 hf with rfl | hf
    · have hr : remaining rule (f :: rest) = remaining rule rest :=
        List.filter_cons_of_neg (by simpa using hd)
      have hl := length_encode_remaining_le rule rest
      rw [hr]
      omega
    · have hi := ih hf
      unfold remaining at hi ⊢
      rw [List.filter_cons]
      split
      · rw [length_encode_cons]
        omega
      · omega

theorem length_encode_storeField (rule : FieldRule) (f : Field) (record : Record) :
    (encode (storeField rule f record)).length ≤
      (encodeField f).length + (encode (remaining rule record)).length := by
  rcases storeField_cases rule f record with he | ⟨-, he⟩
  · rw [he]
    exact Nat.le_add_left _ _
  · rw [he]
    exact Nat.le_of_eq (length_encode_insertField f _)

/-- The bytes of a message are read up to its end. -/
theorem length_tail_of_reads (h : Reads type depth stop record bs out tail) :
    tail.length = stop := by
  induction h with
  | stop here => exact here
  | skip key unknown skipped others ih => exact ih
  | plain key known isPlain value others ih => exact ih
  | part key known isPart length inner others ihPart ih => exact ih

/-- What a part needs beyond the part that it was merged into: room for its fields, a key, and at
most one byte more than the length that was read. -/
theorem length_encode_part {tag n : Nat} {fields : Record} (hr : type.rule? tag = some rule)
    (hp : (encode fields).length ≤ (encode (partBefore rule record)).length + 2 * n) :
    (encode (storeField rule (.message tag fields) record)).length
        + (encode (partBefore rule record)).length ≤
      (encode record).length + (encode fields).length
        + (writeKey tag .lengthDelimited).length + (writeVarint n).length + 1 := by
  have hs := length_encode_storeField rule (.message tag fields) record
  have hm := writeVarint_length_mono hp
  have ha := writeVarint_length_add (encode (partBefore rule record)).length (2 * n)
  have hd := writeVarint_length_double n
  rw [length_encodeField] at hs
  simp only [Field.tag, Field.wireType, writeValue, writeDelimited, List.length_append] at hs
  rcases partBefore_cases rule record with he | ⟨hl, hb⟩
  -- A part that was merged into nothing is added to the record; else the part before it goes.
  · have hrem := length_encode_remaining_le rule record
    rw [he, encode, List.length_nil, Nat.zero_add] at hp
    have hz := writeVarint_length_mono hp
    rw [he, encode, List.length_nil]
    omega
  · have hg : (Field.message rule.tag (partBefore rule record)).tag ∈ rule.displaced :=
      tag_mem_displaced (mem_rules_of_rule? hr) hl
    have hrem := length_encode_remaining_of_mem hb hg
    rw [length_encodeField] at hrem
    simp only [Field.tag, Field.wireType, writeValue, writeDelimited, List.length_append,
      tag_of_rule? hr] at hrem
    omega

/-- Nothing takes more than twice the room of what it was read from. -/
theorem length_of_reads (h : Reads type depth stop record bs out tail) :
    (encode out).length + 2 * tail.length ≤ (encode record).length + 2 * bs.length := by
  induction h with
  | stop here => exact Nat.le_refl _
  | skip key unknown skipped others ih =>
    have hk := le_of_readKey key
    have hs := (length_le_of_skip _).1 _ _ _ _ _ skipped
    omega
  | @plain type depth stop tag record out form rule f bs rest rest' tail key known isPlain value
      others ih =>
    obtain ⟨ht, rfl, -, hv⟩ := plain_of_readPlain isPlain value
    have hk := le_of_readKey key
    have hs := length_encode_storeField rule f record
    have hr := length_encode_remaining_le rule record
    rw [length_encodeField, ht, tag_of_rule? known] at hs
    omega
  | @part type part depth stop tag n record fields out form rule bs rest rest' rest'' tail key
      known isPart length inner others ihPart ih =>
    obtain ⟨rfl, -, hl⟩ := of_readPartLength length
    obtain ⟨hn, hl⟩ := le_of_readLength hl
    have hk := le_of_readKey key
    have ht := length_tail_of_reads inner
    have hf : (encode fields).length ≤ (encode (partBefore rule record)).length + 2 * n := by
      omega
    have hp := length_encode_part known hf
    have hw := writeKey_length_pos tag .lengthDelimited
    omega

theorem length_of_decode (h : decode type bs = .ok record) :
    (encode record).length ≤ 2 * bs.length := by
  obtain ⟨⟨out, tail⟩, hr, rfl⟩ := map_eq_ok.1 h
  have hl := length_of_reads (reads_of_readFields hr)
  simp only [encode, List.length_nil] at hl ⊢
  omega

end ChainIndexer.Wire
