import ChainIndexer.Proofs.Amount.Currency
import ChainIndexer.Proofs.Amount.Places

/-
  The readings of an amount, compared.

  A coin is the same amount whether its value and its denomination come apart or in one text
  (`ofText_append`). A decimal of the chain is read as a coin is, but for its exponent. So its two
  forms agree: an integer that counts units of `10 ^ -18`, and the number with 18 places behind a
  point (`ofDecimal_forms`). Only a point makes the second form. A comma is a mark for the value and
  none for the form, so behind a comma the places are read and then counted as 18
  (`ofDecimal_reads`).
-/

namespace ChainIndexer.Amount

open Text Outcome

/-! ## Coins in one text and apart -/

/-- A value and a denomination put together are read as the coin that they are apart: as the same
number with the same exponent and currency, or with the same fault. -/
theorem ofText_append {value denom : String} (nonempty : value ≠ "")
    (held : ∀ c ∈ value.toList,
      c.isDigit = true ∨ c = '.' ∨ c = ',' ∨ c = '-' ∨ isBlank c = true)
    (letter : ∃ c ∈ denom.toList.head?, c.isAlpha = true) :
    ofText (value ++ denom) =
      (ofCoin value denom).map fun a => { a with text := value ++ denom } := by
  have hne : value.toList ≠ [] := by simpa using nonempty
  have hl : ∀ c ∈ denom.toList.head?, c.isAlpha = true := by
    obtain ⟨c, hc, ha⟩ := letter
    intro d hd
    rwa [Option.mem_unique hd hc]
  have hs : splitCurrency (value ++ denom).toList = (value.toList, denom.toList) := by
    rw [String.toList_append]
    exact splitCurrency_append hne (fun c hc => isValueChar_iff.2 (held c hc)) hl
  rw [ofText_of_splitCurrency hs, String.ofList_toList]
  unfold ofCoin
  cases readNumeric value.toList with
  | ok numeric => rfl
  | error fault => rfl

theorem ofText_append_channel :
    " -1,50\t" ≠ "" ∧ "1.2,3" ≠ "" ∧
    (∀ c ∈ " -1,50\t".toList,
      c.isDigit = true ∨ c = '.' ∨ c = ',' ∨ c = '-' ∨ isBlank c = true) ∧
    (∀ c ∈ "1.2,3".toList,
      c.isDigit = true ∨ c = '.' ∨ c = ',' ∨ c = '-' ∨ isBlank c = true) ∧
    (∃ c ∈ "ibc/27.5".toList.head?, c.isAlpha = true) ∧
    ofText (" -1,50\t" ++ "ibc/27.5") = .ok ⟨" -1,50\t" ++ "ibc/27.5", -150, 2, "ibc/27.5"⟩ ∧
    ofText ("1.2,3" ++ "ibc/27.5") = .error (.manyPoints "1.2.3") := by
  have hread : " -1,50\t" ≠ "" := by decide
  have hrefused : "1.2,3" ≠ "" := by decide
  have hreadHeld : ∀ c ∈ " -1,50\t".toList,
      c.isDigit = true ∨ c = '.' ∨ c = ',' ∨ c = '-' ∨ isBlank c = true :=
    fun c hc => isValueChar_iff.1 (List.all_eq_true.1 rfl c hc)
  have hrefusedHeld : ∀ c ∈ "1.2,3".toList,
      c.isDigit = true ∨ c = '.' ∨ c = ',' ∨ c = '-' ∨ isBlank c = true :=
    fun c hc => isValueChar_iff.1 (List.all_eq_true.1 rfl c hc)
  have hl : ∃ c ∈ "ibc/27.5".toList.head?, c.isAlpha = true := ⟨'i', rfl, rfl⟩
  have hcoin : ofCoin " -1,50\t" "ibc/27.5" = .ok ⟨" -1,50\t", -150, 2, "ibc/27.5"⟩ := by rfl
  have hfault : ofCoin "1.2,3" "ibc/27.5" = .error (.manyPoints "1.2.3") := by rfl
  refine ⟨hread, hrefused, hreadHeld, hrefusedHeld, hl, ?_, ?_⟩
  · rw [ofText_append hread hreadHeld hl, hcoin]
    rfl
  · rw [ofText_append hrefused hrefusedHeld hl, hfault]
    rfl

/-! ## Numerals as coins -/

theorem Decimal.trim_self (d : Decimal) : trim d.chars = d.chars := by
  have h := d.trim_chars (List.forall_mem_nil _) (List.forall_mem_nil _)
  rwa [List.nil_append, List.append_nil] at h

theorem ofCoin_numeral (d : Decimal) (fits : d.fraction.length ≤ maxSigned32) (denom : String) :
    ofCoin d.text denom = .ok ⟨d.text, d.numeric, d.fraction.length, denom⟩ := by
  have hr : readNumeric d.text.toList = .ok (d.numeric, (d.fraction.length : Int)) := by
    rw [d.toList_text, d.readNumeric_chars d.trim_self.symm, if_pos fits]
  unfold ofCoin
  rw [hr]
  rfl

theorem ofCoin_placed (n : Int) {places : Nat} (fits : places ≤ maxSigned32) (denom : String) :
    ofCoin (Decimal.placed n places).text denom =
      .ok ⟨(Decimal.placed n places).text, n, places, denom⟩ := by
  have h := ofCoin_numeral (Decimal.placed n places)
  rw [Decimal.numeric_placed, Decimal.length_fraction_placed] at h
  exact h fits denom

/-! ## Decimals of the chain -/

/-- A decimal of the chain is the coin of its text, but for the exponent where there is no point. -/
theorem ofDecimal_eq (value denom : String) : ofDecimal value denom =
    (ofCoin value denom).map fun c =>
      { c with exp := if '.' ∈ value.toList then c.exp else decimalPlaces } := by
  unfold ofDecimal ofCoin
  split
  · cases readNumeric value.toList with
    | ok numeric => rfl
    | error fault => rfl
  · cases readNumeric value.toList with
    | ok numeric => rfl
    | error fault => rfl

/-- An integer that counts units of `10 ^ -18` and the number that it stands for, with 18 places
behind a point, are read alike. -/
theorem ofDecimal_forms (n : Int) (denom : String) :
    ofDecimal (integerText n) denom = .ok ⟨integerText n, n, 18, denom⟩ ∧
    ofDecimal (Decimal.placed n 18).text denom = .ok ⟨(Decimal.placed n 18).text, n, 18, denom⟩ ∧
    (Decimal.placed n 18).fraction.length = 18 ∧ (Decimal.placed n 18).value = n / 10 ^ 18 := by
  refine ⟨?_, ?_, Decimal.length_fraction_placed n 18, Decimal.value_placed n 18⟩
  · have hp := point_notMem_of_readInteger (readInteger_integerText n)
    have hc := ofCoin_placed n (Nat.zero_le _) denom
    rw [Decimal.text_placed_zero] at hc
    rw [ofDecimal_eq, hc]
    simp only [if_neg hp]
    rfl
  · have hp : '.' ∈ (Decimal.placed n 18).text.toList := Decimal.point_mem_placed n (by decide)
    rw [ofDecimal_eq, ofCoin_placed n (by decide) denom]
    simp only [if_pos hp]
    rfl

/-! ## Marks in a decimal of the chain -/

/-- An integer as it is written: a sign, if there is one, and digits, whose underscores count for
nothing. -/
def Written (text : List Char) (n : Int) : Prop :=
  ∃ s body, text = Sign.chars s ++ body ∧ Grouped body ∧ n = s.factor * groupedNat body

/-- The marks in a text that is taken for a numeral: none, a point or a comma. -/
theorem marks_of_taken {cs : List Char} {n : Int} {places : Nat} (h : Taken (trim cs) n places) :
    ('.' ∉ cs ∧ ',' ∉ cs ∧ Written (trim cs) n) ∨ ('.' ∈ cs ∧ ',' ∉ cs) ∨
      ('.' ∉ cs ∧ ',' ∈ cs) := by
  obtain ⟨s, body, hm, hg, hn⟩ := h
  have hr : readInteger (s.chars ++ body) = .ok n := readInteger_eq_ok_iff.2 ⟨s, body, rfl, hg, hn⟩
  have hp := point_notMem_of_readInteger hr
  have hc := comma_notMem_of_readInteger hr
  rw [← mem_trim_iff (by decide : isBlank '.' = false),
    ← mem_trim_iff (by decide : isBlank ',' = false)]
  unfold Written
  generalize trim cs = text at hm
  generalize hi : s.chars ++ body = integer at hm hp hc
  cases hm with
  | absent => exact .inl ⟨hp, hc, s, body, hi.symm, hg, hn⟩
  | put m whole fraction =>
    rw [List.mem_append, not_or] at hp hc
    simp only [List.mem_append, List.mem_cons, hp.1, hp.2, hc.1, hc.2, false_or, or_false]
    cases m with
    | point => exact .inr (.inl ⟨rfl, by decide⟩)
    | comma => exact .inr (.inr ⟨by decide, rfl⟩)

/-- No digit behind a mark is dropped: with a mark the number is that of the coin, and without one
it is the integer written, of 18 places. -/
def FractionKept (value denom : String) (a : Amount) : Prop :=
  if '.' ∈ value.toList ∨ ',' ∈ value.toList then
    ∃ c, ofCoin value denom = .ok c ∧ a.numeric = c.numeric ∧ a.exp = c.exp
  else Written (trim value.toList) a.numeric ∧ a.exp = 18

/-- What is read as a decimal of the chain is what is read as a coin, with the exponent of the coin
if there is a point, and else with 18. Its fraction is kept, unless a comma divides it and it has
other than 18 places. -/
theorem ofDecimal_reads (value denom : String) :
    (∀ a, ofDecimal value denom = .ok a ↔ ∃ c, ofCoin value denom = .ok c ∧
      a = { c with exp := if '.' ∈ value.toList then c.exp else 18 }) ∧
    ∀ a c, ofDecimal value denom = .ok a → ofCoin value denom = .ok c →
      (FractionKept value denom a ↔ (',' ∈ value.toList → c.exp = 18)) := by
  have hd : ∀ a, ofDecimal value denom = .ok a ↔ ∃ c, ofCoin value denom = .ok c ∧
      a = { c with exp := if '.' ∈ value.toList then c.exp else 18 } := by
    intro a
    rw [ofDecimal_eq, map_eq_ok]
    simp only [eq_comm (b := a), decimalPlaces]
  refine ⟨hd, fun a c ha hc => ?_⟩
  obtain ⟨c', hc', rfl⟩ := (hd a).1 ha
  cases hc'.symm.trans hc
  obtain ⟨n, e, hr, rfl⟩ := ofCoin_eq_ok_iff.1 hc
  obtain ⟨places, htaken, -, rfl⟩ := readNumeric_eq_ok_iff.1 hr
  unfold FractionKept
  rw [hc]
  -- Only behind a comma the exponent is not that of the coin.
  rcases marks_of_taken htaken with ⟨hp, hm, hw⟩ | ⟨hp, hm⟩ | ⟨hp, hm⟩
  · simp only [hp, hm, hw, or_self, if_false, false_implies, and_self]
  · simp [hp, hm]
  · simp [hp, hm, eq_comm]

theorem ofDecimal_reads_pointed :
    ofDecimal "-0.05" "uatom" = .ok ⟨"-0.05", -5, 2, "uatom"⟩ ∧
    ofCoin "-0.05" "uatom" = .ok ⟨"-0.05", -5, 2, "uatom"⟩ ∧
    FractionKept "-0.05" "uatom" ⟨"-0.05", -5, 2, "uatom"⟩ := by
  have hd : ofDecimal "-0.05" "uatom" = .ok ⟨"-0.05", -5, 2, "uatom"⟩ := by rfl
  have hc : ofCoin "-0.05" "uatom" = .ok ⟨"-0.05", -5, 2, "uatom"⟩ := by rfl
  have hm : ',' ∉ "-0.05".toList := by decide
  exact ⟨hd, hc, ((ofDecimal_reads "-0.05" "uatom").2 _ _ hd hc).2 fun h => absurd h hm⟩

theorem ofDecimal_comma :
    ofDecimal "1,5" "uatom" = .ok ⟨"1,5", 15, 18, "uatom"⟩ ∧
    ofCoin "1,5" "uatom" = .ok ⟨"1,5", 15, 1, "uatom"⟩ ∧
    ¬FractionKept "1,5" "uatom" ⟨"1,5", 15, 18, "uatom"⟩ := by
  have hc : ofCoin "1,5" "uatom" = .ok ⟨"1,5", 15, 1, "uatom"⟩ := by rfl
  refine ⟨rfl, hc, ?_⟩
  unfold FractionKept
  rw [if_pos (.inr (by decide)), hc]
  rintro ⟨c, ⟨⟩, _, he⟩
  exact absurd he (by decide)

end ChainIndexer.Amount
