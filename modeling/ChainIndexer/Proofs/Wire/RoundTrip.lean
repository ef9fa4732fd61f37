import ChainIndexer.Proofs.Wire.Size

/-
  Records, written and read again.

  The fields of a canonical record are read one after another as they were written: each is stored
  behind those before it, and a part is read into nothing (`readFields_encode`). So a canonical
  record is read from its bytes (`decode_encode`). What has been read is canonical and does not take
  too much room, so the bytes that are written for it are read as the same record
  (`decode_encode_of_decode`).
-/

namespace ChainIndexer.Wire

open Outcome Text

variable {inner : MessageType → Record → Prop} {type part : MessageType} {rule : FieldRule}
  {f : Field} {before after : Record} {depth stop fuel : Nat} {bs tail : Bytes}

/-! ## Fields in their place -/

theorem insertField_of_le (h : ∀ g ∈ before, g.tag ≤ f.tag) :
    insertField f before = before ++ [f] := by
  induction before with
  | nil => rfl
  | cons g rest ih =>
    simp only [insertField]
    rw [if_pos (h g List.mem_cons_self), ih fun x hx => h x (List.mem_cons_of_mem g hx)]
    rfl

/-- No field in front of another one gives way to it. -/
theorem not_displaced (hf : Stands inner type rule f)
    (h : Lawful inner type (before ++ f :: after)) :
    ∀ g ∈ before, g.tag ≤ f.tag ∧ g.tag ∉ rule.displaced := by
  intro g hg
  obtain ⟨hle, hn⟩ := (List.pairwise_append.1 h.apart).2.2 g hg f List.mem_cons_self
  obtain ⟨rule', hg'⟩ := h.stands g (List.mem_append_left _ hg)
  refine ⟨hle, fun hd => hn ?_⟩
  exact displaces_symm hf.known hg'.known ((displaces_iff hf.known).2 hd)

theorem storeField_append (hf : Stands inner type rule f)
    (h : Lawful inner type (before ++ f :: after)) : storeField rule f before = before ++ [f] := by
  have hd := not_displaced hf h
  have hr : remaining rule before = before :=
    List.filter_eq_self.2 fun g hg => decide_eq_true (hd g hg).2
  rw [storeField_of_present hf.present, hr]
  exact insertField_of_le fun g hg => (hd g hg).1

/-- A part is read into nothing. -/
theorem partBefore_eq_nil (hf : Stands inner type rule f)
    (h : Lawful inner type (before ++ f :: after)) : partBefore rule before = [] := by
  rcases partBefore_cases rule before with he | ⟨hl, hm⟩
  · exact he
  · have ht := tag_mem_displaced (mem_rules_of_rule? hf.known) hl
    exact absurd ht (not_displaced hf h _ hm).2

/-! ## Reading again -/

theorem readPartLength_writeDelimited {value : Bytes} (hd : 0 < depth)
    (h : value.length < 2 ^ 64) (rest : Bytes) :
    readPartLength depth .lengthDelimited (writeDelimited value ++ rest) =
      .ok (value.length, value ++ rest) := by
  have hz : ¬depth = 0 := Nat.pos_iff_ne_zero.1 hd
  simp only [readPartLength, hz]
  exact readLength_writeDelimited h rest

theorem key_of_stands (hf : Stands inner type rule f) (rest : Bytes) :
    readKey (writeKey f.tag f.wireType ++ rest) = .ok ((f.tag, f.wireType), rest) := by
  obtain ⟨hp, ht⟩ := (regular type).keys rule (mem_rules_of_rule? hf.known)
  rw [tag_of_rule? hf.known] at hp ht
  exact readKey_writeKey hp ht _ rest

/-- A field is read as it was written, if its part is. -/
theorem readFields_encodeField {record : Record} {rest : Bytes}
    (hf : Stands (Nested depth) type rule f) (hl : (encodeField f).length < 2 ^ 64)
    (hb : partBefore rule record = []) (hr : stop ≤ rest.length)
    (hp : ∀ part fields, f = .message f.tag fields → Canonical (depth - 1) part fields →
      readFields fuel part (depth - 1) rest.length [] (encode fields ++ rest) =
        .ok (fields, rest)) :
    readFields (fuel + 1) type depth stop record (encodeField f ++ rest) =
      readFields fuel type depth stop (storeField rule f record) rest := by
  have hkey := key_of_stands hf (writeValue f ++ rest)
  have hw := writeKey_length_pos f.tag f.wireType
  rw [length_encodeField] at hl
  rw [encodeField_eq, List.append_assoc]
  have hmore : stop < (writeKey f.tag f.wireType ++ (writeValue f ++ rest)).length := by
    simp only [List.length_append]
    omega
  have hholds := hf.holds
  generalize hc : rule.content = c at hholds
  cases hholds with
  | plain value =>
    have hv := readPlain_writeValue (hc ▸ value) (tag_of_rule? hf.known).symm (by omega) rest
    exact readFields_plain hmore hkey hf.known (hc ▸ ne_message_of_plain value) hv
  | @part part fields value tag =>
    have hd := pos_of_nested value
    rw [nested_of_pos hd] at value
    have hlen := writeDelimited_length_le (encode fields)
    rw [writeValue] at hl
    have hsize : (encode fields).length < 2 ^ 64 := by omega
    have hn := readPartLength_writeDelimited hd hsize rest
    have hstop : (encode fields ++ rest).length - (encode fields).length = rest.length := by
      rw [List.length_append, Nat.add_sub_cancel_left]
    have hinner := hp part fields rfl value
    rw [← hb, ← hstop] at hinner
    exact readFields_part hmore hkey hf.known hc hn hinner

/-- Behind the fields that have been read, the others are read as they were written. -/
theorem readFields_encode (hc : Canonical depth type (before ++ after))
    (hl : (encode after).length < 2 ^ 64) (hf : (encode after).length < fuel)
    (ht : stop = tail.length) :
    readFields fuel type depth stop before (encode after ++ tail) =
      .ok (before ++ after, tail) := by
  induction fuel generalizing type depth stop before after tail with
  | zero => cases hf
  | succ fuel ih =>
    cases after with
    | nil =>
      rw [encode, List.nil_append, List.append_nil]
      exact readFields_stop ht.symm
    | cons f after =>
      obtain ⟨rule, hs⟩ := hc.stands f (List.mem_append_right before List.mem_cons_self)
      have hpos := length_encodeField_pos f
      rw [length_encode_cons] at hl hf
      have hparts : ∀ part fields, f = .message f.tag fields → Canonical (depth - 1) part fields →
          readFields fuel part (depth - 1) (encode after ++ tail).length []
            (encode fields ++ (encode after ++ tail)) = .ok (fields, encode after ++ tail) := by
        intro part fields hm hp
        have hlt := length_encode_lt hm
        rw [← List.nil_append fields] at hp
        exact ih hp (by omega) (by omega) rfl
      have hstop : stop ≤ (encode after ++ tail).length := by
        rw [ht, List.length_append]
        exact Nat.le_add_left _ _
      have hfield := readFields_encodeField hs (by omega) (partBefore_eq_nil hs hc) hstop hparts
      rw [encode, List.append_assoc, hfield, storeField_append hs hc]
      rw [List.append_cons before f after] at hc ⊢
      exact ih hc (by omega) (by omega) ht

/-- A canonical record is read as it was written. -/
theorem decode_encode {record : Record} (hc : Canonical depthLimit type record)
    (hl : (encode record).length < 2 ^ 64) : decode type (encode record) = .ok record := by
  have hr : readFields ((encode record).length + 1) type depthLimit 0 [] (encode record ++ []) =
      .ok ([] ++ record, []) :=
    readFields_encode hc hl (Nat.lt_succ_self _) rfl
  rw [List.append_nil] at hr
  unfold decode
  rw [hr]
  rfl

/-- The bytes that are written for what has been read are read as the same. -/
theorem decode_encode_of_decode {record : Record} (hm : bs.length < 2 ^ 63)
    (h : decode type bs = .ok record) : decode type (encode record) = .ok record := by
  have hl := length_of_decode h
  exact decode_encode (canonical_of_decode h) (by omega)

end ChainIndexer.Wire
