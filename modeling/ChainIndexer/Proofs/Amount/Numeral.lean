import Mathlib.Tactic.FieldSimp
import Mathlib.Tactic.Ring
import ChainIndexer.Error
import ChainIndexer.Proofs.Outcome
import ChainIndexer.Proofs.Amount.Value
import ChainIndexer.Proofs.Amount.Marked

/-
  Numerals, and what is taken for one.

  A `Decimal` is what is commonly written for a number: a sign, digits, and a point or a comma with
  more digits behind it. It is read as the number that it denotes. Reading looks at what stands on
  both sides of the mark as one integer, so it takes for a numeral any integer that a mark is put
  into (`Taken`). Two kinds of text are taken for numerals that are none: those with underscores
  between the digits, and those with a sign behind a mark in front (`ofCoin_reads`).
-/

namespace ChainIndexer.Amount

open Text Outcome

/-! ## Plain numerals -/

/-- The digits behind a mark, if there is one. -/
def fractionOf : Option (Mark × List Char) → List Char
  | none => []
  | some (_, digits) => digits

/-- A plain decimal numeral: a sign, digits, and a mark with digits behind it. One digit on either
side is enough. -/
structure Decimal where
  sign : Sign
  whole : List Char
  tail : Option (Mark × List Char)
  digit : ∀ c ∈ whole ++ fractionOf tail, c.isDigit = true
  nonempty : whole ++ fractionOf tail ≠ []

namespace Decimal

/-- The digits behind the mark. -/
def fraction (d : Decimal) : List Char :=
  fractionOf d.tail

/-- The mark and what is behind it. -/
def tailChars : Option (Mark × List Char) → List Char
  | none => []
  | some (m, digits) => m.char :: digits

/-- How a numeral is written. -/
def chars (d : Decimal) : List Char :=
  d.sign.chars ++ d.whole ++ tailChars d.tail

/-- The number that a numeral denotes: its whole part, and its fraction by its places. -/
def value (d : Decimal) : ℚ :=
  d.sign.factor * (Nat.ofDigitChars 10 d.whole 0 +
    Nat.ofDigitChars 10 d.fraction 0 / (10 : ℚ) ^ d.fraction.length)

/-- The integer of all digits of a numeral. -/
def numeric (d : Decimal) : Int :=
  d.sign.factor * Nat.ofDigitChars 10 (d.whole ++ d.fraction) 0

theorem marked_chars (d : Decimal) :
    Marked (d.sign.chars ++ (d.whole ++ d.fraction)) d.chars d.fraction.length := by
  obtain ⟨sign, whole, tail, _, _⟩ := d
  unfold chars fraction
  cases tail with
  | none =>
    rw [fractionOf, tailChars, List.append_nil, List.append_nil]
    exact .absent _
  | some tail =>
    rw [fractionOf, tailChars, ← List.append_assoc]
    exact .put tail.1 _ _

theorem readInteger_digits (d : Decimal) :
    readInteger (d.sign.chars ++ (d.whole ++ d.fraction)) = .ok d.numeric := by
  have h := readInteger_signed d.sign (grouped_of_digits d.nonempty d.digit)
  rw [groupedNat_of_digits d.digit] at h
  exact h

/-- A numeral is read, unless its fraction has more places than fit. -/
theorem readNumeric_chars (d : Decimal) {cs : List Char} (h : d.chars = trim cs) :
    readNumeric cs =
      if d.fraction.length ≤ maxSigned32 then .ok (d.numeric, (d.fraction.length : Int))
      else .error .fractionTooLong :=
  readNumeric_of_marked (h ▸ d.marked_chars) d.readInteger_digits

/-- The integer of all digits, by the places of the fraction, is what a numeral denotes. -/
theorem numeric_mul_zpow (d : Decimal) :
    (d.numeric : ℚ) * (10 : ℚ) ^ (-(d.fraction.length : Int)) = d.value := by
  have h : Nat.ofDigitChars 10 (d.whole ++ d.fraction) 0 =
      10 ^ d.fraction.length * Nat.ofDigitChars 10 d.whole 0 +
        Nat.ofDigitChars 10 d.fraction 0 := by
    rw [Nat.ofDigitChars_append, Nat.ofDigitChars_eq_ofDigitChars_zero]
  unfold numeric value
  rw [h, zpow_neg, zpow_natCast]
  push_cast
  field_simp

theorem value_eq_of_readNumeric (d : Decimal) {cs : List Char} (hd : d.chars = trim cs) {n e : Int}
    (h : readNumeric cs = .ok (n, e)) {text currency : String} :
    Amount.value ⟨text, n, e, currency⟩ = d.value := by
  rw [d.readNumeric_chars hd] at h
  split at h
  · obtain ⟨hn, he⟩ := Prod.mk.inj (Except.ok.inj h)
    unfold Amount.value
    rw [← hn, ← he, d.numeric_mul_zpow]
  · cases h

theorem mem_behind_sign {d : Decimal} {c : Char} (h : c ∈ d.whole ++ tailChars d.tail) :
    c.isDigit = true ∨ c = '.' ∨ c = ',' := by
  have hw : ∀ c ∈ d.whole, c.isDigit = true := fun c hc => d.digit c (List.mem_append_left _ hc)
  have hf : ∀ c ∈ fractionOf d.tail, c.isDigit = true := fun c hc =>
    d.digit c (List.mem_append_right _ hc)
  rcases List.mem_append.1 h with h | h
  · exact .inl (hw c h)
  · revert h hf
    cases d.tail with
    | none => exact fun _ h => absurd h List.not_mem_nil
    | some tail =>
      obtain ⟨m, digits⟩ := tail
      intro hf h
      rcases List.mem_cons.1 h with rfl | h
      · cases m with
        | point => exact .inr (.inl rfl)
        | comma => exact .inr (.inr rfl)
      · exact .inl (hf c h)

end Decimal

/-! ## What tells numerals from other texts -/

/-- No underscore, and no sign but in front. -/
structure Tidy (text : List Char) : Prop where
  underscore : '_' ∉ text
  sign : ∀ c ∈ text.tail, c ≠ '-' ∧ c ≠ '+'

theorem tidy_iff {text : List Char} :
    Tidy text ↔ '_' ∉ text ∧ text.tail.all (fun c => c ≠ '-' ∧ c ≠ '+') = true := by
  simp only [List.all_eq_true, decide_eq_true_eq]
  exact ⟨fun h => ⟨h.underscore, h.sign⟩, fun h => ⟨h.1, h.2⟩⟩

instance (text : List Char) : Decidable (Tidy text) :=
  decidable_of_iff _ tidy_iff.symm

theorem mem_of_mem_tail_signed (s : Sign) {cs : List Char} {c : Char}
    (h : c ∈ (s.chars ++ cs).tail) : c ∈ cs := by
  cases s with
  | unsigned => exact List.mem_of_mem_tail h
  | minus => exact h
  | plus => exact h

theorem mem_signChars {s : Sign} {c : Char} (h : c ∈ s.chars) : c = '-' ∨ c = '+' := by
  cases s with
  | unsigned => exact absurd h List.not_mem_nil
  | minus => exact .inl (List.mem_singleton.1 h)
  | plus => exact .inr (List.mem_singleton.1 h)

theorem tidy_chars (d : Decimal) : Tidy d.chars := by
  unfold Decimal.chars
  rw [List.append_assoc]
  constructor
  · intro h
    rcases List.mem_append.1 h with h | h
    · rcases mem_signChars h with h | h <;> exact absurd h (by decide)
    · rcases Decimal.mem_behind_sign h with h | h | h <;> exact absurd h (by decide)
  · intro c h
    have hc := Decimal.mem_behind_sign (mem_of_mem_tail_signed d.sign h)
    constructor
    · rintro rfl
      rcases hc with h | h | h <;> exact absurd h (by decide)
    · rintro rfl
      rcases hc with h | h | h <;> exact absurd h (by decide)

/-- Where signs are in front only, a mark is put behind the sign. -/
theorem exists_whole_of_tidy {s : Sign} {body whole fraction : List Char} {m : Mark}
    (h : s.chars ++ body = whole ++ fraction) (ht : Tidy (whole ++ m.char :: fraction)) :
    ∃ digits, whole = s.chars ++ digits ∧ body = digits ++ fraction := by
  rcases List.append_eq_append_iff.1 h with ⟨digits, hw, hb⟩ | ⟨behind, hs, hf⟩
  · exact ⟨digits, hw, hb⟩
  · cases behind with
    | nil => exact ⟨[], by simpa using hs.symm, by simpa using hf.symm⟩
    | cons c behind =>
      -- Here the sign would stand behind the mark, where a tidy text has none.
      have hc : c ∈ s.chars := by
        rw [hs]
        exact List.mem_append_right _ List.mem_cons_self
      have hm : c ∈ (whole ++ m.char :: fraction).tail := by
        rw [hf]
        cases whole with
        | nil => exact List.mem_cons_self
        | cons d whole => simp
      obtain ⟨hn, hp⟩ := ht.sign c hm
      rcases mem_signChars hc with hc | hc
      · exact absurd hc hn
      · exact absurd hc hp

theorem isDigit_of_tidy {body text : List Char} (hg : Grouped body) (ht : Tidy text)
    (hb : body ⊆ text) : ∀ c ∈ body, c.isDigit = true := by
  intro c hc
  refine (hg.each c hc).resolve_right ?_
  rintro rfl
  exact ht.underscore (hb hc)

/-- A tidy text that is taken for a numeral is one. -/
theorem exists_decimal {s : Sign} {body text : List Char} {places : Nat}
    (hm : Marked (s.chars ++ body) text places) (hg : Grouped body) (ht : Tidy text) :
    ∃ d : Decimal, d.chars = text := by
  generalize he : s.chars ++ body = integer at hm
  cases hm with
  | absent =>
    have hd := isDigit_of_tidy hg ht (he ▸ List.subset_append_right _ _)
    refine ⟨⟨s, body, none, ?_, ?_⟩, ?_⟩
    · rwa [fractionOf, List.append_nil]
    · rw [fractionOf, List.append_nil]
      exact hg.nonempty
    · rw [← he]
      exact List.append_nil _
  | put m whole fraction =>
    obtain ⟨digits, rfl, rfl⟩ := exists_whole_of_tidy he ht
    have hd := isDigit_of_tidy hg ht (by
      intro c hc
      simp only [List.mem_append, List.mem_cons] at hc ⊢
      grind)
    exact ⟨⟨s, digits, some (m, fraction), hd, hg.nonempty⟩, rfl⟩

/-! ## Coins -/

/-- A text that is taken for a numeral: an integer with a mark put into it, whose underscores count
for nothing. -/
def Taken (text : List Char) (numeric : Int) (places : Nat) : Prop :=
  ∃ s body, Marked (Sign.chars s ++ body) text places ∧ Grouped body ∧
    numeric = s.factor * groupedNat body

theorem taken_iff {text : List Char} {n : Int} {places : Nat} :
    Taken text n places ↔ ∃ integer, Marked integer text places ∧ readInteger integer = .ok n := by
  unfold Taken
  simp only [readInteger_eq_ok_iff]
  constructor
  · rintro ⟨s, body, hm, hg, hn⟩
    exact ⟨_, hm, s, body, rfl, hg, hn⟩
  · rintro ⟨_, hm, s, body, rfl, hg, hn⟩
    exact ⟨s, body, hm, hg, hn⟩

theorem readNumeric_eq_ok_iff {cs : List Char} {n e : Int} :
    readNumeric cs = .ok (n, e) ↔
      ∃ places : Nat, Taken (trim cs) n places ∧ places ≤ maxSigned32 ∧ e = places := by
  simp only [taken_iff]
  constructor
  · intro h
    rcases marked_or_fault cs with ⟨integer, places, n', hm, hr⟩ | ⟨fault, hf, _⟩
    · rw [readNumeric_of_marked hm hr] at h
      split at h
      · rename_i hle
        cases h
        exact ⟨places, ⟨integer, hm, hr⟩, hle, rfl⟩
      · cases h
    · rw [hf] at h
      cases h
  · rintro ⟨places, ⟨integer, hm, hr⟩, hle, rfl⟩
    rw [readNumeric_of_marked hm hr, if_pos hle]

theorem ofCoin_eq_ok_iff {value denom : String} {a : Amount} :
    ofCoin value denom = .ok a ↔
      ∃ (n : Int) (e : Int), readNumeric value.toList = .ok (n, e) ∧ a = ⟨value, n, e, denom⟩ := by
  unfold ofCoin
  rw [map_eq_ok]
  simp only [Prod.exists, @eq_comm _ a]

/-- The refusal of an amount as malformed. -/
def Malformed (r : Except Fault Amount) : Prop :=
  ∃ text, r.mapError Error.ofAmount = .error (.malformedAmount text)

theorem malformed_of_error {value denom : String} {fault : Fault}
    (h : readNumeric value.toList = .error fault) (hne : fault ≠ .fractionTooLong) :
    Malformed (ofCoin value denom) := by
  refine ⟨fault.message, ?_⟩
  unfold ofCoin
  rw [h]
  cases fault with
  | fractionTooLong => exact absurd rfl hne
  | _ => rfl

theorem malformed_of_not_taken {value : String}
    (h : ∀ n places, ¬Taken (trim value.toList) n places) (denom : String) :
    Malformed (ofCoin value denom) := by
  rcases marked_or_fault value.toList with ⟨integer, places, n, hm, hr⟩ | ⟨fault, hf, hne⟩
  · exact absurd (taken_iff.2 ⟨integer, hm, hr⟩) (h n places)
  · exact malformed_of_error hf hne

/-- A coin is read if its value is taken for a numeral whose places fit, and as that number. What is
read is a numeral, and stands for what that denotes, exactly if the value is tidy. A value that is
not taken for a numeral is refused as malformed, so a tidy value that is no numeral is. -/
theorem ofCoin_reads (value denom : String) :
    (∀ a, ofCoin value denom = .ok a ↔ ∃ (n : Int) (places : Nat),
      Taken (trim value.toList) n places ∧ places ≤ maxSigned32 ∧ a = ⟨value, n, places, denom⟩) ∧
    (∀ a, ofCoin value denom = .ok a →
      ((∃ d : Decimal, d.chars = trim value.toList ∧ a.value = d.value) ↔
        Tidy (trim value.toList))) ∧
    ((∀ n places, ¬Taken (trim value.toList) n places) → Malformed (ofCoin value denom)) ∧
    (Tidy (trim value.toList) → (∀ d : Decimal, d.chars ≠ trim value.toList) →
      Malformed (ofCoin value denom)) := by
  refine ⟨fun a => ?_, fun a h => ⟨?_, fun ht => ?_⟩, fun h => malformed_of_not_taken h denom,
    fun ht hd => malformed_of_not_taken ?_ denom⟩
  · rw [ofCoin_eq_ok_iff]
    simp only [readNumeric_eq_ok_iff]
    constructor
    · rintro ⟨n, e, ⟨places, htaken, hle, rfl⟩, rfl⟩
      exact ⟨n, places, htaken, hle, rfl⟩
    · rintro ⟨n, places, htaken, hle, rfl⟩
      exact ⟨n, places, ⟨places, htaken, hle, rfl⟩, rfl⟩
  · rintro ⟨d, hd, _⟩
    exact hd ▸ tidy_chars d
  · obtain ⟨n, e, hr, rfl⟩ := ofCoin_eq_ok_iff.1 h
    obtain ⟨places, ⟨s, body, hm, hg, -⟩, -⟩ := readNumeric_eq_ok_iff.1 hr
    obtain ⟨d, hd⟩ := exists_decimal hm hg ht
    exact ⟨d, hd, d.value_eq_of_readNumeric hd hr⟩
  · rintro n places ⟨s, body, hm, hg, -⟩
    obtain ⟨d, hd'⟩ := exists_decimal hm hg ht
    exact hd d hd'

theorem ofCoin_reads_spaced :
    Tidy (trim " -12,50 ".toList) ∧
    (∃ d : Decimal, d.chars = trim " -12,50 ".toList ∧
      value ⟨" -12,50 ", -1250, 2, "uatom"⟩ = d.value) ∧
    Tidy (trim "1.2.3".toList) ∧ (∀ d : Decimal, d.chars ≠ trim "1.2.3".toList) ∧
    Malformed (ofCoin "1.2.3" "uatom") := by
  have hs : Tidy (trim " -12,50 ".toList) := by decide
  have hp : Tidy (trim "1.2.3".toList) := by decide
  have hd : ∀ d : Decimal, d.chars ≠ trim "1.2.3".toList := by
    intro d hd
    have hr := d.readNumeric_chars hd
    rw [show readNumeric "1.2.3".toList = .error (.manyPoints "1.2.3") by rfl] at hr
    split at hr <;> cases hr
  exact ⟨hs, ((ofCoin_reads " -12,50 " "uatom").2.1 _ rfl).2 hs, hp, hd,
    (ofCoin_reads "1.2.3" "uatom").2.2.2 hp hd⟩

theorem ofCoin_takesMore :
    (ofCoin "1_000" "uatom" = .ok ⟨"1_000", 1000, 0, "uatom"⟩ ∧
      ∀ d : Decimal, d.chars ≠ trim "1_000".toList) ∧
    ofCoin ".-5" "uatom" = .ok ⟨".-5", -5, 2, "uatom"⟩ ∧
      ∀ d : Decimal, d.chars ≠ trim ".-5".toList := by
  refine ⟨⟨rfl, fun d hd => ?_⟩, rfl, fun d hd => ?_⟩
  · exact absurd (hd ▸ tidy_chars d) (by decide)
  · exact absurd (hd ▸ tidy_chars d) (by decide)

end ChainIndexer.Amount
