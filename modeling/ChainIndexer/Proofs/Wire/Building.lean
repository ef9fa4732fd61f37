import ChainIndexer.Proofs.Wire.Canonical
import ChainIndexer.Proofs.Wire.Views

/-
  Records that are built field by field.

  A field that is put there for a value fills the place of its tag (`Fills`): it is left out when it
  says nothing, and else it stands as its table wants it. Such places one behind another make a
  canonical record (`Upto.append`), as long as the table has no groups.
-/

namespace ChainIndexer.Wire

open Text

variable {inner : MessageType → Record → Prop} {type part : MessageType} {tag : Nat}
  {name : String} {xs ys : Record}

/-- A table without groups: a field gives way at most to one of its own tag. -/
def Ungrouped (type : MessageType) : Prop :=
  ∀ rule ∈ type.rules, ∀ t ∈ rule.displaced, t = rule.tag

instance (type : MessageType) : Decidable (Ungrouped type) :=
  inferInstanceAs (Decidable (∀ rule ∈ type.rules, ∀ t ∈ rule.displaced, t = rule.tag))

theorem eq_of_displaces {s t : Nat} (h : Ungrouped type) (hd : type.Displaces s t) : t = s := by
  obtain ⟨rule, hr, ht⟩ := hd
  rw [h rule (mem_rules_of_rule? hr) t ht, tag_of_rule? hr]

/-! ## Places -/

/-- Fields under one tag that may stand there together. -/
structure Fills (inner : MessageType → Record → Prop) (type : MessageType) (tag : Nat)
    (fields : Record) : Prop where
  here : ∀ f ∈ fields, f.tag = tag
  stands : ∀ f ∈ fields, ∃ rule, Stands inner type rule f
  apart : fields.Pairwise fun f g => ¬type.Displaces f.tag g.tag

/-- A record that may stand, with all its fields below a tag. -/
structure Upto (inner : MessageType → Record → Prop) (type : MessageType) (tag : Nat)
    (record : Record) : Prop where
  lawful : Lawful inner type record
  below : ∀ f ∈ record, f.tag < tag

theorem upto_nil (inner : MessageType → Record → Prop) (type : MessageType) :
    Upto inner type 1 [] :=
  ⟨lawful_nil type, nofun⟩

theorem Fills.upto (h : Fills inner type tag xs) : Upto inner type (tag + 1) xs := by
  refine ⟨⟨?_, h.stands⟩, fun f hf => ?_⟩
  · refine h.apart.imp_of_mem fun {f g} hf hg hn => ⟨?_, hn⟩
    exact Nat.le_of_eq ((h.here f hf).trans (h.here g hg).symm)
  · rw [h.here f hf]
    exact Nat.lt_succ_self tag

/-- The fields of the next tag may stand behind those below it. -/
theorem Upto.append (hx : Upto inner type tag xs) (hy : Fills inner type tag ys)
    (hu : Ungrouped type) : Upto inner type (tag + 1) (xs ++ ys) := by
  have hl := hy.upto.lawful
  refine ⟨⟨List.pairwise_append.2 ⟨hx.lawful.apart, hl.apart, ?_⟩, ?_⟩, ?_⟩
  · intro f hf g hg
    have hlt := hx.below f hf
    rw [hy.here g hg]
    exact ⟨Nat.le_of_lt hlt, fun hd => Nat.ne_of_gt hlt (eq_of_displaces hu hd)⟩
  · intro f hf
    exact (List.mem_append.1 hf).elim (hx.lawful.stands f) (hy.stands f)
  · intro f hf
    rcases List.mem_append.1 hf with hf | hf
    · exact Nat.lt_succ_of_lt (hx.below f hf)
    · rw [hy.here f hf]
      exact Nat.lt_succ_self tag

theorem fills_nil (type : MessageType) (tag : Nat) : Fills inner type tag [] :=
  ⟨nofun, nofun, .nil⟩

theorem fills_singleton {rule : FieldRule} {f : Field} (h : Stands inner type rule f) :
    Fills inner type f.tag [f] := by
  refine ⟨fun g hg => ?_, fun g hg => ?_, List.pairwise_singleton _ _⟩
  · rw [List.mem_singleton.1 hg]
  · rw [List.mem_singleton.1 hg]
    exact ⟨rule, h⟩

/-! ## Fields put there for a value -/

theorem fills_textField (h : type.rule? tag = some (one tag name .text)) (s : String) :
    Fills inner type tag (textField tag s) := by
  unfold textField
  split
  · exact fills_nil type tag
  · rename_i hs
    refine fills_singleton (f := .text tag s) ⟨h, fun _ => ?_, .plain (.text tag s)⟩
    exact beq_false_of_ne hs

theorem fills_bytesField (h : type.rule? tag = some (one tag name .bytes)) (b : Bytes) :
    Fills inner type tag (bytesField tag b) := by
  unfold bytesField
  split
  · exact fills_nil type tag
  · rename_i hb
    refine fills_singleton (f := .bytes tag b) ⟨h, fun _ => ?_, .plain (.bytes tag b)⟩
    exact beq_false_of_ne hb

/-- A number stands if it is as large as it is read. -/
theorem fills_wordField {c : Content} {n : Nat} (h : type.rule? tag = some (one tag name c))
    (form : c.wireType = .varint) (small : n < 2 ^ 64) (kept : narrowWord c n = n) :
    Fills inner type tag (wordField tag n) := by
  unfold wordField
  split
  · exact fills_nil type tag
  · rename_i hn
    refine fills_singleton (f := .word tag n) ⟨h, fun _ => ?_, .plain (.word form small kept tag)⟩
    exact beq_false_of_ne hn

theorem fills_flagField (h : type.rule? tag = some (one tag name .flag)) (b : Bool) :
    Fills inner type tag (flagField tag b) := by
  rw [flagField_eq]
  cases b with
  | false => exact fills_nil type tag
  | true => exact fills_wordField h rfl (by decide) rfl

variable {α : Type} {toRecord : α → Record}

theorem fills_partField (h : type.rule? tag = some (one tag name (.message part)))
    (p : Option α) (hp : ∀ a ∈ p, inner part (toRecord a)) :
    Fills inner type tag (partField tag (p.map toRecord)) := by
  cases p with
  | none => exact fills_nil type tag
  | some a =>
    exact fills_singleton (f := .message tag (toRecord a)) ⟨h, fun _ => rfl, .part (hp a rfl) tag⟩

theorem fills_partFields (h : type.rule? tag = some (many tag name (.message part)))
    (xs : List α) (hp : ∀ a ∈ xs, inner part (toRecord a)) :
    Fills inner type tag (partFields tag (xs.map toRecord)) := by
  refine ⟨fun f => tag_of_mem_partFields, ?_, ?_⟩
  · intro f hf
    obtain ⟨fields, hfields, rfl⟩ := List.mem_map.1 hf
    obtain ⟨a, ha, rfl⟩ := List.mem_map.1 hfields
    exact ⟨_, h, nofun, .part (hp a ha) tag⟩
  · refine List.pairwise_map.2 (List.pairwise_iff_forall_sublist.2 fun _ hd => ?_)
    exact List.not_mem_nil ((displaces_iff h).1 hd)

end ChainIndexer.Wire
