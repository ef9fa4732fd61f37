import ChainIndexer.Text.Numeral
import ChainIndexer.Proofs.Outcome

/-
  What is read as an integer.

  An integer of any size is a sign, if there is one, and behind it a digit with digits and
  underscores after it. These are the texts that are read, and their value is that of the digits
  (`readInteger_eq_ok_iff`). An underscore counts for nothing.
-/

namespace ChainIndexer.Text

open Outcome

/-! ## Signs -/

/-- The sign in front of a number, if there is one. -/
inductive Sign where
  | unsigned
  | minus
  | plus
  deriving DecidableEq

namespace Sign

/-- How a sign is written. -/
def chars : Sign → List Char
  | unsigned => []
  | minus => ['-']
  | plus => ['+']

/-- What a sign makes of a magnitude. -/
def factor : Sign → Int
  | unsigned => 1
  | minus => -1
  | plus => 1

end Sign

/-! ## Magnitudes -/

/-- A digit, with digits and underscores after it. -/
structure Grouped (cs : List Char) : Prop where
  nonempty : cs ≠ []
  first : ∀ c ∈ cs.head?, c ≠ '_'
  each : ∀ c ∈ cs, c.isDigit = true ∨ c = '_'

/-- The number of some digits, whose underscores count for nothing. -/
def groupedNat (cs : List Char) : Nat :=
  Nat.ofDigitChars 10 (cs.filter (· != '_')) 0

theorem groupedNat_of_digits {cs : List Char} (h : ∀ c ∈ cs, c.isDigit = true) :
    groupedNat cs = Nat.ofDigitChars 10 cs 0 := by
  have hu : cs.filter (· != '_') = cs := by
    apply List.filter_eq_self.2
    intro c hc
    rw [bne_iff_ne]
    rintro rfl
    exact absurd (h _ hc) (by decide)
  unfold groupedNat
  rw [hu]

theorem grouped_of_digits {cs : List Char} (nonempty : cs ≠ [])
    (h : ∀ c ∈ cs, c.isDigit = true) : Grouped cs where
  nonempty := nonempty
  first c hc := by
    rintro rfl
    exact absurd (h _ (List.mem_of_mem_head? hc)) (by decide)
  each c hc := .inl (h c hc)

/-- A grouped number begins with a digit, so with no sign. -/
theorem Grouped.isDigit_head {cs : List Char} (h : Grouped cs) : ∀ c ∈ cs.head?, c.isDigit = true :=
  fun c hc => (h.each c (List.mem_of_mem_head? hc)).resolve_right (h.first c hc)

theorem readDigits_eq_ok_iff {cs : List Char} {n : Nat} :
    readDigits cs = .ok n ↔ (∀ c ∈ cs, c.isDigit = true ∨ c = '_') ∧ n = groupedNat cs := by
  have hd : (cs.filter (· != '_')).all Char.isDigit = true ↔
      ∀ c ∈ cs, c.isDigit = true ∨ c = '_' := by
    simp only [List.all_eq_true, List.mem_filter, bne_iff_ne, and_imp, ne_eq,
      Decidable.or_iff_not_imp_right]
  unfold readDigits groupedNat
  dsimp only
  rw [← hd]
  split
  · rename_i h
    simp only [Except.ok.injEq, h, true_and, eq_comm]
  · rename_i h
    simp only [reduceCtorEq, h, false_and]

theorem readMagnitude_eq_ok_iff {cs : List Char} {n : Nat} :
    readMagnitude cs = .ok n ↔ Grouped cs ∧ n = groupedNat cs := by
  cases cs with
  | nil => exact ⟨nofun, fun h => absurd rfl h.1.nonempty⟩
  | cons c cs =>
    rw [readMagnitude]
    by_cases hc : c = '_'
    · rw [if_pos hc]
      exact ⟨nofun, fun h => absurd hc (h.1.first c rfl)⟩
    · rw [if_neg hc, readDigits_eq_ok_iff]
      refine and_congr_left fun _ => ⟨fun h => ⟨nofun, ?_, h⟩, Grouped.each⟩
      rintro d ⟨⟩
      exact hc

/-! ## Integers -/

theorem readInteger_of_grouped {cs : List Char} (h : Grouped cs) :
    readInteger cs = (readMagnitude cs).map Int.ofNat := by
  unfold readInteger
  split
  · exact absurd (h.isDigit_head '-' rfl) (by decide)
  · exact absurd (h.isDigit_head '+' rfl) (by decide)
  · rfl

theorem readInteger_signed (s : Sign) {cs : List Char} (h : Grouped cs) :
    readInteger (s.chars ++ cs) = .ok (s.factor * groupedNat cs) := by
  have hm : readMagnitude cs = .ok (groupedNat cs) := readMagnitude_eq_ok_iff.2 ⟨h, rfl⟩
  cases s with
  | unsigned =>
    rw [Sign.chars, List.nil_append, readInteger_of_grouped h, hm, Sign.factor, Int.one_mul]
    rfl
  | minus =>
    rw [Sign.chars, List.singleton_append, readInteger, hm, Sign.factor, Int.neg_one_mul]
    rfl
  | plus =>
    rw [Sign.chars, List.singleton_append, readInteger, hm, Sign.factor, Int.one_mul]
    rfl

/-- A sign is read off the front, if there is one, and the rest as a magnitude. -/
theorem exists_readInteger_eq (cs : List Char) : ∃ s body, cs = Sign.chars s ++ body ∧
    readInteger cs = (readMagnitude body).map fun (n : Nat) => s.factor * n := by
  have one : ∀ body, (readMagnitude body).map Int.ofNat =
      (readMagnitude body).map fun (n : Nat) => 1 * (n : Int) := by
    intro body
    simp only [Int.one_mul]
    rfl
  unfold readInteger
  split
  · rename_i body
    refine ⟨.minus, body, rfl, ?_⟩
    cases readMagnitude body with
    | error fault => rfl
    | ok n => exact congrArg Except.ok (Int.neg_one_mul n).symm
  · exact ⟨.plus, _, rfl, one _⟩
  · exact ⟨.unsigned, _, rfl, one _⟩

/-- An integer is read exactly where a sign, if there is one, stands before a grouped number. -/
theorem readInteger_eq_ok_iff {cs : List Char} {z : Int} :
    readInteger cs = .ok z ↔
      ∃ s body, cs = Sign.chars s ++ body ∧ Grouped body ∧ z = s.factor * groupedNat body := by
  constructor
  · intro h
    obtain ⟨s, body, hcs, hr⟩ := exists_readInteger_eq cs
    obtain ⟨n, hn, rfl⟩ := map_eq_ok.1 (hr.symm.trans h)
    obtain ⟨hg, rfl⟩ := readMagnitude_eq_ok_iff.1 hn
    exact ⟨s, body, hcs, hg, rfl⟩
  · rintro ⟨s, body, rfl, hg, rfl⟩
    exact readInteger_signed s hg

end ChainIndexer.Text
