import ChainIndexer.Proofs.Outcome
import ChainIndexer.Wire.Record

/-
  What it takes to read a message.

  `Reads` derives the record that the bytes of a message are read into, one field after another: a
  field is skipped, or a value or a part of the message is stored. Every successful run of
  `readFields` is such a derivation (`reads_of_readFields`), so what each step keeps is kept by the
  whole.
-/

namespace ChainIndexer.Wire

open Outcome Text

/-- The record that a message is read into, and what is left of its bytes. -/
inductive Reads : MessageType → Nat → Nat → Record → Bytes → Record → Bytes → Prop
  | stop {type : MessageType} {depth stop : Nat} {record : Record} {bs : Bytes}
      (here : bs.length = stop) : Reads type depth stop record bs record bs
  | skip {type : MessageType} {depth stop fuel tag : Nat} {record out : Record} {form : WireType}
      {bs rest rest' tail : Bytes} (key : readKey bs = .ok ((tag, form), rest))
      (unknown : type.rule? tag = none) (skipped : skipValue fuel depth form tag rest = .ok rest')
      (others : Reads type depth stop record rest' out tail) :
      Reads type depth stop record bs out tail
  | plain {type : MessageType} {depth stop tag : Nat} {record out : Record} {form : WireType}
      {rule : FieldRule} {f : Field} {bs rest rest' tail : Bytes}
      (key : readKey bs = .ok ((tag, form), rest)) (known : type.rule? tag = some rule)
      (isPlain : ∀ part, rule.content ≠ .message part)
      (value : readPlain rule form rest = .ok (f, rest'))
      (others : Reads type depth stop (storeField rule f record) rest' out tail) :
      Reads type depth stop record bs out tail
  | part {type part : MessageType} {depth stop tag n : Nat} {record fields out : Record}
      {form : WireType} {rule : FieldRule} {bs rest rest' rest'' tail : Bytes}
      (key : readKey bs = .ok ((tag, form), rest)) (known : type.rule? tag = some rule)
      (isPart : rule.content = .message part)
      (length : readPartLength depth form rest = .ok (n, rest'))
      (inner : Reads part (depth - 1) (rest'.length - n) (partBefore rule record) rest' fields
        rest'')
      (others : Reads type depth stop (storeField rule (.message tag fields) record) rest'' out
        tail) :
      Reads type depth stop record bs out tail

theorem bare_eq_ok {x : Except Cause α} {a : α} : bare x = .ok a ↔ x = .ok a := by
  cases x with
  | ok b => simp [bare, Except.mapError]
  | error e => simp [bare, Except.mapError]

theorem within_eq_ok {place : String} {x : Except Fault α} {a : α} :
    within place x = .ok a ↔ x = .ok a := by
  cases x with
  | ok b => simp [within, Except.mapError]
  | error e => simp [within, Except.mapError]

/-- What has been read is derived from the bytes. -/
theorem reads_of_readFields {fuel depth stop : Nat} {type : MessageType} {record out : Record}
    {bs tail : Bytes} (h : readFields fuel type depth stop record bs = .ok (out, tail)) :
    Reads type depth stop record bs out tail := by
  induction fuel generalizing type depth stop record bs out tail with
  | zero => cases h
  | succ fuel ih =>
    simp only [readFields] at h
    split at h
    · split at h
      · rename_i hs
        cases h
        exact .stop hs
      · cases h
    obtain ⟨⟨⟨tag, form⟩, rest⟩, key, h⟩ := bind_eq_ok.1 h
    rw [bare_eq_ok] at key
    simp only at h
    split at h
    · rename_i unknown
      obtain ⟨rest', skipped, h⟩ := bind_eq_ok.1 h
      exact .skip key unknown (bare_eq_ok.1 skipped) (ih h)
    rename_i rule known
    split at h
    · rename_i part isPart
      obtain ⟨⟨fields, rest''⟩, hp, h⟩ := bind_eq_ok.1 h
      obtain ⟨⟨n, rest'⟩, length, hp⟩ := bind_eq_ok.1 (within_eq_ok.1 hp)
      exact .part key known isPart (bare_eq_ok.1 length) (ih hp) (ih h)
    · rename_i isPlain
      obtain ⟨⟨f, rest'⟩, value, h⟩ := bind_eq_ok.1 h
      exact .plain key known isPlain (bare_eq_ok.1 (within_eq_ok.1 value)) (ih h)

/-! ## Steps -/

section

variable {type part : MessageType} {rule : FieldRule} {form : WireType} {f : Field}
  {record fields : Record} {fuel depth stop tag n : Nat} {bs rest rest' rest'' : Bytes}

theorem readFields_stop (here : bs.length = stop) :
    readFields (fuel + 1) type depth stop record bs = .ok (record, bs) := by
  unfold readFields
  rw [if_pos (Nat.le_of_eq here), if_pos here]

theorem readFields_plain (more : stop < bs.length) (key : readKey bs = .ok ((tag, form), rest))
    (known : type.rule? tag = some rule) (isPlain : ∀ part, rule.content ≠ .message part)
    (value : readPlain rule form rest = .ok (f, rest')) :
    readFields (fuel + 1) type depth stop record bs =
      readFields fuel type depth stop (storeField rule f record) rest' := by
  rw [readFields, if_neg (Nat.not_le.2 more), key]
  simp only [bare, Except.mapError, bind, Except.bind, known, value, within]

theorem readFields_part (more : stop < bs.length) (key : readKey bs = .ok ((tag, form), rest))
    (known : type.rule? tag = some rule) (isPart : rule.content = .message part)
    (length : readPartLength depth form rest = .ok (n, rest'))
    (inner : readFields fuel part (depth - 1) (rest'.length - n) (partBefore rule record) rest' =
      .ok (fields, rest'')) :
    readFields (fuel + 1) type depth stop record bs =
      readFields fuel type depth stop (storeField rule (.message tag fields) record) rest'' := by
  rw [readFields, if_neg (Nat.not_le.2 more), key]
  simp only [bare, Except.mapError, bind, Except.bind, known, isPart, length, inner, within]

end

/-! ## Parts -/

/-- A part has its own form, stands at some depth and has a length. -/
theorem of_readPartLength {depth n : Nat} {form : WireType} {bs rest : Bytes}
    (h : readPartLength depth form bs = .ok (n, rest)) :
    form = .lengthDelimited ∧ 0 < depth ∧ readLength bs = .ok (n, rest) := by
  by_cases hf : form = .lengthDelimited
  · by_cases hd : depth = 0
    · simp only [readPartLength, hf, hd] at h
      cases h
    · simp only [readPartLength, hf, hd] at h
      exact ⟨hf, Nat.pos_of_ne_zero hd, h⟩
  · simp only [readPartLength, if_pos hf] at h
    cases h

end ChainIndexer.Wire
