import ChainIndexer.Proofs.Text.Blank
import ChainIndexer.Proofs.Amount.Numeral

/-
  A value and its currency in one text.

  A currency begins with a letter, which no value holds, so a text is divided where it was put
  together (`splitCurrency_append`). A numeral with blanks around it and a currency behind it is
  read as the number that the numeral denotes, of that currency (`ofText_reads`).
-/

namespace ChainIndexer.Amount

open Text Outcome

/-! ## Where the currency begins -/

theorem isValueChar_iff {c : Char} : isValueChar c = true ↔
    c.isDigit = true ∨ c = '.' ∨ c = ',' ∨ c = '-' ∨ isBlank c = true := by
  unfold isValueChar
  simp only [Bool.or_eq_true, beq_iff_eq, or_assoc]

theorem isValueChar_of_isAlpha {c : Char} (h : c.isAlpha = true) : isValueChar c = false := by
  have hd : c.isDigit = false := by
    have ha := toNat_of_isAlpha h
    rw [Bool.eq_false_iff, ne_eq, Char.isDigit_iff_toNat]
    have h9 : '9'.toNat = 57 := rfl
    omega
  have hne : ∀ d : Char, d.isAlpha = false → c ≠ d := by
    rintro d hd rfl
    exact Bool.noConfusion (h.symm.trans hd)
  unfold isValueChar
  simp [hd, isBlank_of_isAlpha h, hne '.' rfl, hne ',' rfl, hne '-' rfl]

theorem splitCurrency_append {value currency : List Char} (nonempty : value ≠ [])
    (held : ∀ c ∈ value, isValueChar c = true)
    (letter : ∀ c ∈ currency.head?, c.isAlpha = true) :
    splitCurrency (value ++ currency) = (value, currency) := by
  obtain ⟨v, vs, hv⟩ := List.exists_cons_of_ne_nil nonempty
  unfold splitCurrency
  rw [List.takeWhile_append_of_pos held, List.dropWhile_append_of_pos held]
  cases currency with
  | nil =>
    rw [List.takeWhile_nil, List.dropWhile_nil, List.append_nil, hv]
  | cons c cs =>
    have hc := letter c rfl
    have hn : ¬isValueChar c = true := by
      rw [isValueChar_of_isAlpha hc]
      exact Bool.false_ne_true
    rw [List.takeWhile_cons_of_neg hn, List.dropWhile_cons_of_neg hn, List.append_nil, hv]
    exact if_pos hc

theorem letter_of_splitCurrency {cs value currency : List Char}
    (h : splitCurrency cs = (value, currency)) : ∀ c ∈ currency.head?, c.isAlpha = true := by
  unfold splitCurrency at h
  split at h
  · rename_i c rest _ hd
    split at h
    · rename_i ha
      rw [hd] at h
      cases h
      rintro d ⟨⟩
      exact ha
    · cases h
      exact nofun
  · cases h
    exact nofun

theorem ofText_of_splitCurrency {raw : String} {value currency : List Char}
    (h : splitCurrency raw.toList = (value, currency)) :
    ofText raw = (readNumeric value).map fun (n, e) => ⟨raw, n, e, String.ofList currency⟩ := by
  unfold ofText
  rw [h]

/-! ## Numerals with a currency -/

namespace Decimal

variable {d : Decimal}

theorem chars_ne_nil (d : Decimal) : d.chars ≠ [] := by
  obtain ⟨sign, whole, tail, _, nonempty⟩ := d
  intro h
  unfold chars at h
  obtain ⟨⟨_, hw⟩, ht⟩ := (List.append_eq_nil_iff.1 h).imp_left List.append_eq_nil_iff.1
  cases tail with
  | none => exact nonempty (List.append_eq_nil_iff.2 ⟨hw, rfl⟩)
  | some tail => exact absurd ht nofun

/-- The characters of a numeral. -/
theorem mem_chars {c : Char} (h : c ∈ d.chars) :
    c ∈ d.sign.chars ∨ c.isDigit = true ∨ c = '.' ∨ c = ',' := by
  unfold chars at h
  rw [List.append_assoc] at h
  exact (List.mem_append.1 h).imp_right mem_behind_sign

theorem isBlank_of_mem_chars {c : Char} (h : c ∈ d.chars) : isBlank c = false := by
  rcases mem_chars h with h | h | rfl | rfl
  · rcases mem_signChars h with rfl | rfl
    · decide
    · decide
  · exact isBlank_of_isDigit h
  · decide
  · decide

/-- A value holds all characters of a numeral but a plus sign. -/
theorem isValueChar_of_mem_chars (hs : d.sign ≠ .plus) {c : Char} (h : c ∈ d.chars) :
    isValueChar c = true := by
  rcases mem_chars h with h | h | rfl | rfl
  · cases hd : d.sign with
    | unsigned => exact absurd (hd ▸ h) List.not_mem_nil
    | minus =>
      rw [hd] at h
      rw [List.mem_singleton.1 h]
      decide
    | plus => exact absurd hd hs
  · unfold isValueChar
    simp [h]
  · decide
  · decide

theorem trim_chars {before after : List Char} (front : ∀ c ∈ before, isBlank c = true)
    (back : ∀ c ∈ after, isBlank c = true) (d : Decimal) :
    trim (before ++ d.chars ++ after) = d.chars :=
  trim_surrounded d.chars_ne_nil (fun _ hc => isBlank_of_mem_chars (List.mem_of_mem_head? hc))
    (fun _ hc => isBlank_of_mem_chars (List.mem_of_mem_getLast? hc)) front back

end Decimal

theorem isValueChar_of_isBlank {c : Char} (h : isBlank c = true) : isValueChar c = true := by
  unfold isValueChar
  simp [h]

/-- What is made of a numeral without a plus sign, between blanks and before a currency. -/
theorem ofText_numeral {d : Decimal} {before after : List Char} {currency raw : String}
    (written : raw.toList = before ++ d.chars ++ after ++ currency.toList)
    (sign : d.sign ≠ .plus) (front : ∀ c ∈ before, isBlank c = true)
    (back : ∀ c ∈ after, isBlank c = true)
    (letter : ∀ c ∈ currency.toList.head?, c.isAlpha = true)
    (fits : d.fraction.length ≤ maxSigned32) :
    ofText raw = .ok ⟨raw, d.numeric, d.fraction.length, currency⟩ := by
  have hv : ∀ c ∈ before ++ d.chars ++ after, isValueChar c = true := by
    intro c hc
    rcases List.mem_append.1 hc with hc | hc
    · rcases List.mem_append.1 hc with hc | hc
      · exact isValueChar_of_isBlank (front c hc)
      · exact Decimal.isValueChar_of_mem_chars sign hc
    · exact isValueChar_of_isBlank (back c hc)
  have hs : splitCurrency raw.toList = (before ++ d.chars ++ after, currency.toList) := by
    rw [written]
    exact splitCurrency_append (by simp [d.chars_ne_nil]) hv letter
  have hr := d.readNumeric_chars (d.trim_chars front back).symm
  rw [if_pos fits] at hr
  rw [ofText_of_splitCurrency hs, hr, String.ofList_toList]
  rfl

/-- A numeral without a plus sign, with blanks around it and a currency behind it, is read as the
number that it denotes. The text is kept as it stands. -/
theorem ofText_reads (d : Decimal) (before after : List Char) (currency : String)
    (sign : d.sign ≠ .plus) (blank : ∀ c ∈ before ++ after, isBlank c = true)
    (letter : ∀ c ∈ currency.toList.head?, c.isAlpha = true)
    (fits : d.fraction.length ≤ maxSigned32) :
    ∃ a, ofText (String.ofList (before ++ d.chars ++ after) ++ currency) = .ok a ∧
      a.text = String.ofList (before ++ d.chars ++ after) ++ currency ∧ a.currency = currency ∧
      a.exp = d.fraction.length ∧ a.value = d.value := by
  obtain ⟨front, back⟩ := List.forall_mem_append.1 blank
  refine ⟨_, ofText_numeral ?_ sign front back letter fits, rfl, rfl, rfl, d.numeric_mul_zpow⟩
  rw [String.toList_append, String.toList_ofList]

/-- A debt with leading zeros and a decimal comma. -/
def debt : Decimal :=
  ⟨.minus, "007".toList, some (.comma, "250".toList), List.all_eq_true.1 rfl, nofun⟩

theorem ofText_reads_debt :
    debt.sign ≠ .plus ∧ (∀ c ∈ " ".toList ++ "\t ".toList, isBlank c = true) ∧
    (∀ c ∈ "uatom".toList.head?, c.isAlpha = true) ∧ debt.fraction.length ≤ maxSigned32 ∧
    ofText " -007,250\t uatom" = .ok ⟨" -007,250\t uatom", -7250, 3, "uatom"⟩ ∧
    value ⟨" -007,250\t uatom", -7250, 3, "uatom"⟩ = debt.value := by
  have hs : debt.sign ≠ .plus := by decide
  have hb : ∀ c ∈ " ".toList ++ "\t ".toList, isBlank c = true := List.all_eq_true.1 rfl
  have hl : ∀ c ∈ "uatom".toList.head?, c.isAlpha = true := by
    rintro c ⟨⟩
    rfl
  have hf : debt.fraction.length ≤ maxSigned32 := by decide
  obtain ⟨a, ha, _, _, _, hv⟩ := ofText_reads debt " ".toList "\t ".toList "uatom" hs hb hl hf
  have hr : ofText " -007,250\t uatom" = .ok ⟨" -007,250\t uatom", -7250, 3, "uatom"⟩ := by rfl
  cases hr.symm.trans ha
  exact ⟨hs, hb, hl, hf, hr, hv⟩

end ChainIndexer.Amount
