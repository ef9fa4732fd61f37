import ChainIndexer.Proofs.Wire.Reading
import ChainIndexer.Proofs.Wire.Value

/-
  Which records can be read.

  A value gives way to a later one under the same tag, or under a tag of the same group
  (`displaced`). A record is `Canonical` when its fields stand in ascending order, none of them
  gives way to another, none has the value that an absent field has, and each holds a value of its
  content, a part being canonical in turn and not nested too deep. Whatever has been read is
  canonical (`canonical_of_decode`).
-/

namespace ChainIndexer.Wire

open Outcome Text

/-! ## Tables -/

/-- The tags whose fields give way to a value of a field. -/
def FieldRule.displaced (rule : FieldRule) : List Nat :=
  match rule.label with
  | .repeated => []
  | .single => [rule.tag]
  | .choice _ tags => tags

/-- A table whose tags fit into keys, and in which fields that give way to one another give way to
the same fields. -/
structure Regular (type : MessageType) : Prop where
  keys : ∀ r ∈ type.rules, 1 ≤ r.tag ∧ r.tag < 2 ^ 29
  own : ∀ r ∈ type.rules, (r.label matches .repeated) ∨ r.tag ∈ r.displaced
  shared : ∀ r ∈ type.rules, ∀ s ∈ type.rules, s.tag ∈ r.displaced → s.displaced = r.displaced

theorem regular (type : MessageType) : Regular type := by
  cases type <;> exact ⟨by decide, by decide, by decide⟩

variable {type part : MessageType} {rule : FieldRule} {f g : Field} {record : Record}
  {s t tag depth : Nat}

theorem tag_mem_displaced (h : rule ∈ type.rules) (hl : rule.label ≠ .repeated) :
    rule.tag ∈ rule.displaced := by
  refine ((regular type).own rule h).resolve_left fun hr => hl ?_
  split at hr
  · assumption
  · cases hr

theorem mem_rules_of_rule? (h : type.rule? tag = some rule) : rule ∈ type.rules :=
  List.mem_of_find?_eq_some h

theorem tag_of_rule? (h : type.rule? tag = some rule) : rule.tag = tag := by
  unfold MessageType.rule? at h
  have hb := List.find?_some h
  exact eq_of_beq hb

/-- A field gives way to another that is stored later. -/
def MessageType.Displaces (type : MessageType) (later earlier : Nat) : Prop :=
  ∃ rule, type.rule? later = some rule ∧ earlier ∈ rule.displaced

theorem displaces_iff (h : type.rule? tag = some rule) :
    type.Displaces tag t ↔ t ∈ rule.displaced := by
  constructor
  · rintro ⟨rule', hr, ht⟩
    obtain rfl := Option.some.inj (h.symm.trans hr)
    exact ht
  · exact fun ht => ⟨rule, h, ht⟩

/-- Fields give way to one another mutually: both are the same field, or of the same group. -/
theorem displaces_symm {rule' : FieldRule} (hs : type.rule? s = some rule)
    (ht : type.rule? t = some rule') (h : type.Displaces s t) : type.Displaces t s := by
  rw [displaces_iff hs, ← tag_of_rule? ht] at h
  rw [displaces_iff ht, ← tag_of_rule? hs]
  have hm := mem_rules_of_rule? hs
  rw [(regular type).shared rule hm rule' (mem_rules_of_rule? ht) h]
  refine tag_mem_displaced hm fun hl => ?_
  unfold FieldRule.displaced at h
  rw [hl] at h
  cases h

/-! ## Canonical records -/

section

variable (inner : MessageType → Record → Prop)

/-- The values of a content, whose parts have a property. -/
inductive Holds : Content → Field → Prop
  | plain {c : Content} {f : Field} (value : Plain c f) : Holds c f
  | part {type : MessageType} {fields : Record} (value : inner type fields) (tag : Nat) :
      Holds (.message type) (.message tag fields)

/-- A field with a value of its content, and not the one that an absent field has. -/
structure Stands (type : MessageType) (rule : FieldRule) (f : Field) : Prop where
  known : type.rule? f.tag = some rule
  present : rule.label = .single → f.isDefault = false
  holds : Holds inner rule.content f

/-- Fields in ascending order that stand next to one another. -/
structure Lawful (type : MessageType) (record : Record) : Prop where
  apart : record.Pairwise fun f g => f.tag ≤ g.tag ∧ ¬type.Displaces f.tag g.tag
  stands : ∀ f ∈ record, ∃ rule, Stands inner type rule f

end

/-- The parts that may be nested at a depth. -/
def Nested : Nat → MessageType → Record → Prop
  | 0 => fun _ _ => False
  | depth + 1 => Lawful (Nested depth)

/-- The records that can be read at a depth. -/
def Canonical (depth : Nat) : MessageType → Record → Prop :=
  Lawful (Nested depth)

theorem nested_of_pos (h : 0 < depth) : Nested depth = Canonical (depth - 1) := by
  obtain ⟨depth, rfl⟩ := Nat.exists_eq_succ_of_ne_zero (Nat.pos_iff_ne_zero.1 h)
  rfl

theorem pos_of_nested (h : Nested depth type record) : 0 < depth :=
  Nat.pos_of_ne_zero fun hz => by
    rw [hz] at h
    exact h

/-! ## Storing -/

variable {inner : MessageType → Record → Prop}

theorem lawful_nil (type : MessageType) : Lawful inner type [] :=
  ⟨.nil, nofun⟩

theorem lawful_sublist {record' : Record} (hs : record'.Sublist record)
    (h : Lawful inner type record) : Lawful inner type record' :=
  ⟨h.apart.sublist hs, fun f hf => h.stands f (hs.subset hf)⟩

theorem mem_insertField : g ∈ insertField f record ↔ g = f ∨ g ∈ record := by
  induction record with
  | nil => exact List.mem_singleton.trans (or_iff_left List.not_mem_nil).symm
  | cons h rest ih =>
    simp only [insertField]
    split
    · rw [List.mem_cons, ih, List.mem_cons, or_left_comm]
    · exact List.mem_cons

theorem apart_insertField
    (hs : ∀ g ∈ record, ¬type.Displaces f.tag g.tag ∧ ¬type.Displaces g.tag f.tag)
    (ha : record.Pairwise fun f g => f.tag ≤ g.tag ∧ ¬type.Displaces f.tag g.tag) :
    (insertField f record).Pairwise fun f g => f.tag ≤ g.tag ∧ ¬type.Displaces f.tag g.tag := by
  induction record with
  | nil => exact List.pairwise_singleton _ _
  | cons g rest ih =>
    obtain ⟨hg, hr⟩ := List.pairwise_cons.1 ha
    simp only [insertField]
    split
    · rename_i hle
      refine List.pairwise_cons.2 ⟨?_, ih (fun x hx => hs x (List.mem_cons_of_mem g hx)) hr⟩
      intro x hx
      rcases mem_insertField.1 hx with rfl | hx
      · exact ⟨hle, (hs g List.mem_cons_self).2⟩
      · exact hg x hx
    · rename_i hlt
      refine List.pairwise_cons.2 ⟨?_, ha⟩
      intro x hx
      refine ⟨?_, (hs x hx).1⟩
      rcases List.mem_cons.1 hx with rfl | hx
      · omega
      · have hgx := (hg x hx).1
        omega

theorem lawful_insertField (hf : Stands inner type rule f)
    (hd : ∀ g ∈ record, g.tag ∉ rule.displaced) (h : Lawful inner type record) :
    Lawful inner type (insertField f record) := by
  refine ⟨apart_insertField ?_ h.apart, ?_⟩
  · intro g hg
    obtain ⟨rule', hg'⟩ := h.stands g hg
    have hn : ¬type.Displaces f.tag g.tag := (displaces_iff hf.known).not.2 (hd g hg)
    exact ⟨hn, fun hc => hn (displaces_symm hg'.known hf.known hc)⟩
  · intro g hg
    rcases mem_insertField.1 hg with rfl | hg
    · exact ⟨rule, hf⟩
    · exact h.stands g hg

/-- The fields that do not give way to a value. -/
def remaining (rule : FieldRule) (record : Record) : Record :=
  record.filter fun g => g.tag ∉ rule.displaced

theorem filter_eq_remaining (rule : FieldRule) (keeps : Field → Bool) (record : Record)
    (h : ∀ g, keeps g = true ↔ g.tag ∉ rule.displaced) :
    record.filter keeps = remaining rule record := by
  unfold remaining
  congr
  funext g
  exact Bool.eq_iff_iff.2 ((h g).trans decide_eq_true_iff.symm)

/-- A value is put among the fields that do not give way to it. -/
theorem storeField_of_present (h : rule.label = .single → f.isDefault = false) (record : Record) :
    storeField rule f record = insertField f (remaining rule record) := by
  obtain ⟨tag, name, content, label⟩ := rule
  cases label with
  | repeated =>
    refine congrArg (insertField f) (List.filter_eq_self.2 fun g _ => ?_).symm
    exact decide_eq_true List.not_mem_nil
  | single =>
    have hd : ¬f.isDefault = true := Bool.eq_false_iff.1 (h rfl)
    refine (if_neg hd).trans (congrArg (insertField f) (filter_eq_remaining _ _ _ fun g => ?_))
    simp [FieldRule.displaced]
  | choice group tags =>
    refine congrArg (insertField f) (filter_eq_remaining _ _ _ fun g => ?_)
    simp [FieldRule.displaced]

/-- A value that an absent field has only makes others give way. -/
theorem storeField_of_default (hl : rule.label = .single) (hd : f.isDefault = true)
    (record : Record) : storeField rule f record = remaining rule record := by
  obtain ⟨tag, name, content, label⟩ := rule
  obtain rfl : label = .single := hl
  refine (if_pos hd).trans (filter_eq_remaining _ _ _ fun g => ?_)
  simp [FieldRule.displaced]

theorem storeField_cases (rule : FieldRule) (f : Field) (record : Record) :
    storeField rule f record = remaining rule record ∨
      (rule.label = .single → f.isDefault = false) ∧
        storeField rule f record = insertField f (remaining rule record) := by
  by_cases h : rule.label = .single → f.isDefault = false
  · exact .inr ⟨h, storeField_of_present h record⟩
  · rw [Classical.not_imp, Bool.not_eq_false] at h
    exact .inl (storeField_of_default h.1 h.2 record)

theorem lawful_storeField (hr : type.rule? f.tag = some rule) (hf : Holds inner rule.content f)
    (h : Lawful inner type record) : Lawful inner type (storeField rule f record) := by
  have hl : Lawful inner type (remaining rule record) := lawful_sublist List.filter_sublist h
  rcases storeField_cases rule f record with he | ⟨hp, he⟩
  · rw [he]
    exact hl
  · rw [he]
    refine lawful_insertField ⟨hr, hp, hf⟩ ?_ hl
    intro g hg
    exact of_decide_eq_true (List.mem_filter.1 hg).2

theorem mem_of_part? {fields : Record} (h : record.part? tag = some fields) :
    .message tag fields ∈ record := by
  obtain ⟨f, hf, he⟩ := List.exists_of_findSome?_eq_some h
  cases f with
  | message t fields' =>
    simp only at he
    split at he
    · rename_i ht
      cases he
      rw [← ht]
      exact hf
    · cases he
  | word t value => cases he
  | text t value => cases he
  | bytes t value => cases he

/-- A part is merged into one that stands under the same tag, if there is one. -/
theorem partBefore_cases (rule : FieldRule) (record : Record) :
    partBefore rule record = [] ∨
      rule.label ≠ .repeated ∧ .message rule.tag (partBefore rule record) ∈ record := by
  by_cases hl : rule.label = .repeated
  · left
    unfold partBefore
    rw [hl]
  have hp : partBefore rule record = (record.part? rule.tag).getD [] := by
    unfold partBefore
    split
    · exact absurd ‹_› hl
    · rfl
  cases hf : record.part? rule.tag with
  | none =>
    left
    rw [hp, hf]
    rfl
  | some fields =>
    right
    rw [hp, hf]
    exact ⟨hl, mem_of_part? hf⟩

/-- A part is merged into nothing, or into a canonical part of the same type. -/
theorem nested_partBefore (hr : type.rule? tag = some rule) (hc : rule.content = .message part)
    (hd : 0 < depth) (h : Canonical depth type record) :
    Canonical (depth - 1) part (partBefore rule record) := by
  rcases partBefore_cases rule record with he | ⟨-, hm⟩
  · rw [he]
    exact lawful_nil part
  · obtain ⟨rule', hs⟩ := h.stands _ hm
    obtain rfl : rule = rule' := by
      have hk := hs.known
      rw [Field.tag, tag_of_rule? hr, hr] at hk
      exact Option.some.inj hk
    have hh := hs.holds
    rw [hc] at hh
    rw [← nested_of_pos hd]
    cases hh with
    | plain value => cases value
    | part value => exact value

/-! ## Reading -/

/-- What is read into a canonical record is canonical. -/
theorem canonical_of_reads {stop : Nat} {out : Record} {bs tail : Bytes}
    (h : Reads type depth stop record bs out tail) (hc : Canonical depth type record) :
    Canonical depth type out := by
  induction h with
  | stop here => exact hc
  | skip key unknown skipped others ih => exact ih hc
  | plain key known isPlain value others ih =>
    obtain ⟨ht, -, hp, -⟩ := plain_of_readPlain isPlain value
    refine ih (lawful_storeField ?_ (.plain hp) hc)
    rw [ht, tag_of_rule? known]
    exact known
  | part key known isPart length inner others ihPart ih =>
    obtain ⟨-, hd, -⟩ := of_readPartLength length
    have hp := ihPart (nested_partBefore known isPart hd hc)
    rw [← nested_of_pos hd] at hp
    refine ih (lawful_storeField known ?_ hc)
    rw [isPart]
    exact .part hp _

/-- Whatever has been read is canonical. -/
theorem canonical_of_decode {bs : Bytes} (h : decode type bs = .ok record) :
    Canonical depthLimit type record := by
  obtain ⟨⟨out, tail⟩, hr, rfl⟩ := map_eq_ok.1 h
  exact canonical_of_reads (reads_of_readFields hr) (lawful_nil type)

end ChainIndexer.Wire
