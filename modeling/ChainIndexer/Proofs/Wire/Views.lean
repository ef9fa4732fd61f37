import ChainIndexer.Wire.Record
import Mathlib.Logic.Basic
import Mathlib.Algebra.Group.Int.Defs
import Mathlib.Algebra.Group.Nat.Defs

/-
  What the views of a record see.

  A view looks at the fields under one tag and at nothing else (`text_eq` and its likes). Of fields
  that are put together it sees those of its own tag (`under_append`), and in a field that was put
  there for a value it sees this value. So every part of a record that is built from such fields can
  be read off.
-/

namespace ChainIndexer.Wire

open Text

variable {tag t n : Nat} {s : String} {b : Bytes} {record xs ys : Record}

/-! ## Fields under a tag -/

/-- The fields of a record under a tag. -/
def under (tag : Nat) (record : Record) : Record :=
  record.filter fun f => f.tag = tag

@[simp] theorem under_append (tag : Nat) (xs ys : Record) :
    under tag (xs ++ ys) = under tag xs ++ under tag ys :=
  List.filter_append ..

theorem under_of_forall_tag (h : ∀ f ∈ record, f.tag = t) (tag : Nat) :
    under tag record = if t = tag then record else [] := by
  unfold under
  split
  · rename_i ht
    rw [List.filter_eq_self]
    intro f hf
    exact decide_eq_true ((h f hf).trans ht)
  · rename_i ht
    rw [List.filter_eq_nil_iff]
    intro f hf
    rw [h f hf]
    exact fun hc => ht (of_decide_eq_true hc)

/-! ## Fields put there for a value -/

theorem tag_of_mem_wordField {f : Field} (h : f ∈ wordField tag n) : f.tag = tag := by
  unfold wordField at h
  split at h
  · cases h
  · rw [List.mem_singleton.1 h]
    rfl

theorem tag_of_mem_textField {f : Field} (h : f ∈ textField tag s) : f.tag = tag := by
  unfold textField at h
  split at h
  · cases h
  · rw [List.mem_singleton.1 h]
    rfl

theorem tag_of_mem_bytesField {f : Field} (h : f ∈ bytesField tag b) : f.tag = tag := by
  unfold bytesField at h
  split at h
  · cases h
  · rw [List.mem_singleton.1 h]
    rfl

theorem tag_of_mem_partFields {f : Field} {parts : List Record} (h : f ∈ partFields tag parts) :
    f.tag = tag := by
  obtain ⟨fields, _, rfl⟩ := List.mem_map.1 h
  rfl

theorem flagField_eq (tag : Nat) (b : Bool) : flagField tag b = wordField tag b.toNat := by
  cases b with
  | false => rfl
  | true => rfl

theorem partField_eq (tag : Nat) (p : Option Record) :
    partField tag p = partFields tag p.toList := by
  cases p with
  | none => rfl
  | some fields => rfl

@[simp] theorem under_wordField (tag t n : Nat) :
    under tag (wordField t n) = if t = tag then wordField t n else [] :=
  under_of_forall_tag (fun _ => tag_of_mem_wordField) tag

@[simp] theorem under_textField (tag t : Nat) (s : String) :
    under tag (textField t s) = if t = tag then textField t s else [] :=
  under_of_forall_tag (fun _ => tag_of_mem_textField) tag

@[simp] theorem under_bytesField (tag t : Nat) (b : Bytes) :
    under tag (bytesField t b) = if t = tag then bytesField t b else [] :=
  under_of_forall_tag (fun _ => tag_of_mem_bytesField) tag

@[simp] theorem under_partFields (tag t : Nat) (parts : List Record) :
    under tag (partFields t parts) = if t = tag then partFields t parts else [] :=
  under_of_forall_tag (fun _ => tag_of_mem_partFields) tag

/-! ## Values of fields -/

/-- The number in a field. -/
def Field.word? : Field → Option Nat
  | .word _ n => some n
  | _ => none

/-- The text in a field. -/
def Field.text? : Field → Option String
  | .text _ s => some s
  | _ => none

/-- The bytes in a field. -/
def Field.bytes? : Field → Option Bytes
  | .bytes _ b => some b
  | _ => none

/-- The part in a field. -/
def Field.part? : Field → Option Record
  | .message _ fields => some fields
  | _ => none

/-- A search under a tag. -/
theorem findSome?_under {β : Type} (view : Field → Option β) (tag : Nat) (record : Record) :
    (record.findSome? fun f => if f.tag = tag then view f else none) =
      (under tag record).findSome? view := by
  induction record with
  | nil => rfl
  | cons f rest ih =>
    unfold under at ih ⊢
    rw [List.findSome?_cons, List.filter_cons, ih]
    by_cases h : f.tag = tag
    · simp only [h, if_true, decide_true, List.findSome?_cons]
    · simp only [h, if_false, decide_false, Bool.false_eq_true]

theorem word_eq (record : Record) (tag : Nat) :
    record.word tag = ((under tag record).findSome? Field.word?).getD 0 := by
  rw [← findSome?_under]
  refine congrArg (fun view => (record.findSome? view).getD 0) (funext fun f => ?_)
  cases f with
  | word t n => rfl
  | _ => exact (ite_self _).symm

theorem text_eq (record : Record) (tag : Nat) :
    record.text tag = ((under tag record).findSome? Field.text?).getD "" := by
  rw [← findSome?_under]
  refine congrArg (fun view => (record.findSome? view).getD "") (funext fun f => ?_)
  cases f with
  | text t s => rfl
  | _ => exact (ite_self _).symm

theorem bytes_eq (record : Record) (tag : Nat) :
    record.bytes tag = ((under tag record).findSome? Field.bytes?).getD [] := by
  rw [← findSome?_under]
  refine congrArg (fun view => (record.findSome? view).getD []) (funext fun f => ?_)
  cases f with
  | bytes t b => rfl
  | _ => exact (ite_self _).symm

theorem part?_eq (record : Record) (tag : Nat) :
    record.part? tag = (under tag record).findSome? Field.part? := by
  rw [← findSome?_under]
  refine congrArg (fun view => record.findSome? view) (funext fun f => ?_)
  cases f with
  | message t fields => rfl
  | _ => exact (ite_self _).symm

theorem parts_eq (record : Record) (tag : Nat) :
    record.parts tag = (under tag record).filterMap Field.part? := by
  unfold under
  rw [List.filterMap_filter]
  refine congrArg (fun view => record.filterMap view) (funext fun f => ?_)
  cases f with
  | message t fields => exact if_congr decide_eq_true_iff.symm rfl rfl
  | _ => exact (ite_self _).symm

/-! ## Values that are there -/

@[simp] theorem findSome?_word?_wordField (tag n : Nat) :
    ((wordField tag n).findSome? Field.word?).getD 0 = n := by
  unfold wordField
  split
  · rename_i h
    exact h.symm
  · rfl

@[simp] theorem findSome?_text?_textField (tag : Nat) (s : String) :
    ((textField tag s).findSome? Field.text?).getD "" = s := by
  unfold textField
  split
  · rename_i h
    exact h.symm
  · rfl

@[simp] theorem findSome?_bytes?_bytesField (tag : Nat) (b : Bytes) :
    ((bytesField tag b).findSome? Field.bytes?).getD [] = b := by
  unfold bytesField
  split
  · rename_i h
    exact h.symm
  · rfl

@[simp] theorem findSome?_part?_partField (tag : Nat) (p : Option Record) :
    (partFields tag p.toList).findSome? Field.part? = p := by
  cases p with
  | none => rfl
  | some fields => rfl

@[simp] theorem filterMap_part?_partFields (tag : Nat) (parts : List Record) :
    (partFields tag parts).filterMap Field.part? = parts := by
  unfold partFields
  rw [List.filterMap_map]
  exact List.filterMap_some

/-! ## Signed numbers -/

theorem signedWord_wordOfSigned {z : Int} (low : -2 ^ 63 ≤ z) (high : z < 2 ^ 63) :
    signedWord (wordOfSigned z) = z := by
  unfold signedWord wordOfSigned
  split
  · split
    · omega
    · omega
  · split
    · omega
    · omega

theorem wordOfSigned_lt {z : Int} (low : -2 ^ 63 ≤ z) (high : z < 2 ^ 63) :
    wordOfSigned z < 2 ^ 64 := by
  unfold wordOfSigned
  split
  · omega
  · omega

/-- A signed number of 32 bits is kept with its sign. -/
theorem narrowWord_wordOfSigned {z : Int} (low : -2 ^ 31 ≤ z) (high : z < 2 ^ 31) :
    narrowWord .signed32 (wordOfSigned z) = wordOfSigned z := by
  simp only [narrowWord]
  unfold wordOfSigned
  split
  · split
    · omega
    · omega
  · split
    · omega
    · omega

end ChainIndexer.Wire
