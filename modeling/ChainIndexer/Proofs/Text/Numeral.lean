import ChainIndexer.Text.Numeral

/-
  Numbers written in decimal and read again.

  Reading digits only ever makes the number larger, so a text whose whole number fits a width is
  never refused on the way (`readWordDigits_of_le`). An integer of any size is read from its own
  text (`readInteger_integerText`).
-/

namespace ChainIndexer.Text

/-! ## Digits -/

theorem digitChar_ne_zero : ∀ d < 10, d ≠ 0 → Nat.digitChar d ≠ '0' := by
  decide

/-- The digits of a positive number do not begin with a zero. -/
theorem head_toDigits_ne {n : Nat} (h : n ≠ 0) : (Nat.toDigits 10 n).head? ≠ some '0' := by
  induction n using Nat.strongRecOn with
  | _ n ih =>
    rw [Nat.toDigits_eq_if (by decide)]
    split
    · rename_i hn
      exact fun hc => digitChar_ne_zero n hn h (Option.some.inj hc)
    · have hd := ih (n / 10) (by omega) (by omega)
      cases hc : Nat.toDigits 10 (n / 10) with
      | nil => exact absurd hc Nat.toDigits_ne_nil
      | cons c cs =>
        rw [hc] at hd
        exact hd

theorem isDigit_of_mem_toDigits {n : Nat} {c : Char} (h : c ∈ Nat.toDigits 10 n) :
    c.isDigit = true :=
  Nat.isDigit_of_mem_toDigits (by decide) (by decide) h

theorem toList_integerText (z : Int) : (integerText z).toList =
    if z < 0 then '-' :: Nat.toDigits 10 z.natAbs else Nat.toDigits 10 z.natAbs := by
  unfold integerText
  split
  · rw [String.toList_append, Nat.toList_repr]
    rfl
  · rw [Nat.toList_repr]

/-! ## Integers of any size -/

theorem readMagnitude_toDigits (n : Nat) : readMagnitude (Nat.toDigits 10 n) = .ok n := by
  have hd : ∀ c ∈ Nat.toDigits 10 n, c.isDigit = true := fun _ => isDigit_of_mem_toDigits
  have hu : ∀ c ∈ Nat.toDigits 10 n, (c != '_') = true := by
    intro c hc
    rw [bne_iff_ne]
    rintro rfl
    exact absurd (hd _ hc) (by decide)
  have hr : readDigits (Nat.toDigits 10 n) = .ok n := by
    unfold readDigits
    simp only [List.filter_eq_self.2 hu, List.all_eq_true.2 hd, if_true,
      Nat.ofDigitChars_ten_toDigits]
  cases hc : Nat.toDigits 10 n with
  | nil => exact absurd hc Nat.toDigits_ne_nil
  | cons c cs =>
    rw [hc] at hu hr
    rw [readMagnitude, if_neg (bne_iff_ne.1 (hu c List.mem_cons_self))]
    exact hr

/-- An integer of any size is read from its decimal text. -/
theorem readInteger_integerText (z : Int) : readInteger (integerText z).toList = .ok z := by
  rw [toList_integerText]
  split
  · rw [readInteger, readMagnitude_toDigits]
    exact congrArg Except.ok (show -(z.natAbs : Int) = z by omega)
  · have hd : ∀ c ∈ Nat.toDigits 10 z.natAbs, c.isDigit = true := fun _ => isDigit_of_mem_toDigits
    have hr := readMagnitude_toDigits z.natAbs
    unfold readInteger
    split
    · rename_i he
      rw [he] at hd
      exact absurd (hd '-' List.mem_cons_self) (by decide)
    · rename_i he
      rw [he] at hd
      exact absurd (hd '+' List.mem_cons_self) (by decide)
    · rw [hr]
      exact congrArg Except.ok (Int.natAbs_of_nonneg (by omega))

/-! ## Numbers of a fixed width -/

theorem le_ofDigitChars (cs : List Char) (acc : Nat) : acc ≤ Nat.ofDigitChars 10 cs acc := by
  induction cs generalizing acc with
  | nil => exact Nat.le_refl acc
  | cons c cs ih =>
    rw [Nat.ofDigitChars_cons]
    have h := ih (10 * acc + (c.toNat - '0'.toNat))
    omega

theorem readWordDigits_of_le {limit : Nat} {cs : List Char} {acc : Nat}
    (digits : ∀ c ∈ cs, c.isDigit = true) (fits : Nat.ofDigitChars 10 cs acc ≤ limit) :
    readWordDigits limit cs acc = .ok (Nat.ofDigitChars 10 cs acc) := by
  induction cs generalizing acc with
  | nil => rfl
  | cons c cs ih =>
    rw [Nat.ofDigitChars_cons, Nat.mul_comm] at fits ⊢
    have hc := digits c List.mem_cons_self
    have hle := le_ofDigitChars cs (acc * 10 + (c.toNat - '0'.toNat))
    unfold readWordDigits
    rw [if_pos hc]
    simp only [if_pos (Nat.le_trans hle fits)]
    exact ih (fun d hd => digits d (List.mem_cons_of_mem c hd)) fits

/-- A number that fits is read from its decimal text. -/
theorem readWord_repr {limit n : Nat} (h : n ≤ limit) : readWord limit n.repr.toList = .ok n := by
  have hv : Nat.ofDigitChars 10 (Nat.toDigits 10 n) 0 = n :=
    Nat.ofDigitChars_toDigits (by decide) (by decide)
  have hd : ∀ c ∈ Nat.toDigits 10 n, c.isDigit = true := fun c hc =>
    Nat.isDigit_of_mem_toDigits (by decide) (by decide) hc
  have hr : readWordDigits limit (Nat.toDigits 10 n) 0 = .ok n := by
    rw [readWordDigits_of_le hd (by omega), hv]
  rw [Nat.toList_repr]
  -- The text neither is empty nor begins with a plus sign, so it is read as digits at once.
  unfold readWord
  split
  · rename_i he
    exact absurd he Nat.toDigits_ne_nil
  · rename_i he
    rw [he] at hd
    exact absurd (hd '+' List.mem_cons_self) (by decide)
  · rename_i he
    rw [he] at hd
    exact absurd (hd '+' List.mem_cons_self) (by decide)
  · exact hr

theorem le_of_readWordDigits {limit n : Nat} {cs : List Char} {acc : Nat} (ha : acc ≤ limit)
    (h : readWordDigits limit cs acc = .ok n) : n ≤ limit := by
  induction cs generalizing acc with
  | nil =>
    cases h
    exact ha
  | cons c cs ih =>
    unfold readWordDigits at h
    split at h
    · dsimp only at h
      split at h
      · rename_i hle
        exact ih hle h
      · cases h
    · cases h

/-- A number of a fixed width is no larger than the width allows. -/
theorem le_of_readWord {limit n : Nat} {cs : List Char} (h : readWord limit cs = .ok n) :
    n ≤ limit := by
  unfold readWord at h
  split at h
  · cases h
  · cases h
  · exact le_of_readWordDigits (Nat.zero_le limit) h
  · exact le_of_readWordDigits (Nat.zero_le limit) h

/-- A text of digits, with or without a plus sign in front, whose number fits a width. -/
def IsWord (limit : Nat) (cs : List Char) (n : Nat) : Prop :=
  ∃ digits, (cs = digits ∨ cs = '+' :: digits) ∧ digits ≠ [] ∧ (∀ c ∈ digits, c.isDigit = true) ∧
    Nat.ofDigitChars 10 digits 0 = n ∧ n ≤ limit

theorem digits_of_readWordDigits {limit n : Nat} {cs : List Char} {acc : Nat}
    (h : readWordDigits limit cs acc = .ok n) :
    (∀ c ∈ cs, c.isDigit = true) ∧ Nat.ofDigitChars 10 cs acc = n := by
  induction cs generalizing acc with
  | nil => exact ⟨nofun, Except.ok.inj h⟩
  | cons c cs ih =>
    unfold readWordDigits at h
    split at h
    · rename_i hc
      dsimp only at h
      split at h
      · obtain ⟨hd, hn⟩ := ih h
        rw [Nat.ofDigitChars_cons, Nat.mul_comm]
        exact ⟨List.forall_mem_cons.2 ⟨hc, hd⟩, hn⟩
      · cases h
    · cases h

/-- A number of a fixed width is read from its texts and from no other. -/
theorem readWord_eq_ok_iff {limit n : Nat} {cs : List Char} :
    readWord limit cs = .ok n ↔ IsWord limit cs n := by
  constructor
  · intro h
    have hn := le_of_readWord h
    unfold readWord at h
    split at h
    · cases h
    · cases h
    · rename_i more hne
      obtain ⟨hd, hv⟩ := digits_of_readWordDigits h
      exact ⟨more, .inr rfl, fun he => hne (he ▸ rfl), hd, hv, hn⟩
    · rename_i hne _ _
      obtain ⟨hd, hv⟩ := digits_of_readWordDigits h
      exact ⟨cs, .inl rfl, hne, hd, hv, hn⟩
  · rintro ⟨digits, hc, hne, hd, rfl, hn⟩
    have hr := readWordDigits_of_le hd hn
    obtain ⟨c, rest, rfl⟩ := List.exists_cons_of_ne_nil hne
    have hp : c ≠ '+' := by
      rintro rfl
      exact absurd (hd '+' List.mem_cons_self) (by decide)
    rcases hc with rfl | rfl
    · unfold readWord
      split <;> simp_all
    · exact hr

/-- Different numbers have different texts. -/
theorem eq_of_repr_eq {i j : Nat} (h : i.repr = j.repr) : i = j := by
  have hi := readWord_repr (Nat.le_max_left i j)
  have hj := readWord_repr (Nat.le_max_right i j)
  rw [h, hj] at hi
  exact (Except.ok.inj hi).symm

end ChainIndexer.Text
