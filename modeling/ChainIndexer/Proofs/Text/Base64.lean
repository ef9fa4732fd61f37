import ChainIndexer.Text.Base64

/-
  Base64, written and read again.

  The digits and their values belong to each other (`base64Value?_digit`), and no digit is padding.
  Each group of bytes is a number that its digits make up again, so a byte string of any length is
  read from its text (`readBase64?_base64`).
-/

namespace ChainIndexer.Text

/-- A digit has its own value and is no padding. -/
theorem base64Value?_digit : ∀ n < 64,
    base64Value? (base64Digit n) = some n ∧ base64Digit n ≠ '=' := by
  decide +kernel

/-! ## Groups of digits -/

theorem readBase64One?_digits {n : Nat} (hn : n < 4096) (spare : n % 16 = 0) :
    readBase64One? (base64Digit (n / 64)) (base64Digit (n % 64))
      = some [UInt8.ofNat (n / 16)] := by
  unfold readBase64One?
  rw [(base64Value?_digit (n / 64) (by omega)).1, (base64Value?_digit (n % 64) (by omega)).1]
  simp only [Option.bind_eq_bind, Option.bind_some]
  rw [if_pos (by omega)]
  exact congrArg (fun m => some [UInt8.ofNat m]) (by omega)

theorem readBase64Two?_digits {n : Nat} (hn : n < 262144) (spare : n % 4 = 0) :
    readBase64Two? (base64Digit (n / 4096)) (base64Digit (n / 64 % 64)) (base64Digit (n % 64))
      = some [UInt8.ofNat (n / 1024), UInt8.ofNat (n / 4 % 256)] := by
  unfold readBase64Two?
  rw [(base64Value?_digit (n / 4096) (by omega)).1, (base64Value?_digit (n / 64 % 64) (by omega)).1,
    (base64Value?_digit (n % 64) (by omega)).1]
  have hm : (n / 4096 * 64 + n / 64 % 64) * 64 + n % 64 = n := by omega
  simp only [Option.bind_eq_bind, Option.bind_some, hm]
  exact if_pos (by omega)

theorem readBase64Three?_digits {n : Nat} (hn : n < 16777216) :
    readBase64Three? (base64Digit (n / 262144)) (base64Digit (n / 4096 % 64))
        (base64Digit (n / 64 % 64)) (base64Digit (n % 64))
      = some [UInt8.ofNat (n / 65536), UInt8.ofNat (n / 256 % 256), UInt8.ofNat (n % 256)] := by
  unfold readBase64Three?
  rw [(base64Value?_digit (n / 262144) (by omega)).1,
    (base64Value?_digit (n / 4096 % 64) (by omega)).1,
    (base64Value?_digit (n / 64 % 64) (by omega)).1, (base64Value?_digit (n % 64) (by omega)).1]
  have hm : ((n / 262144 * 64 + n / 4096 % 64) * 64 + n / 64 % 64) * 64 + n % 64 = n := by omega
  simp only [Option.bind_eq_bind, Option.bind_some, hm]
  rfl

/-! ## Byte strings -/

theorem ofNat_eq {m : Nat} {a : UInt8} (h : m = a.toNat) : UInt8.ofNat m = a := by
  rw [h, UInt8.ofNat_toNat]

theorem readBase64Chars?_base64Chars (bs : Bytes) :
    readBase64Chars? (base64Chars bs) = some bs := by
  induction bs using base64Chars.induct with
  | case1 => rfl
  | case2 a =>
    have ha := a.toNat_lt
    rw [base64Chars, readBase64Chars?, readBase64One?_digits (by omega) (by omega)]
    rw [ofNat_eq (a := a) (by omega)]
  | case3 a b =>
    have ha := a.toNat_lt
    have hb := b.toNat_lt
    have hd := (base64Value?_digit ((a.toNat * 256 + b.toNat) * 4 % 64) (by omega)).2
    rw [base64Chars, readBase64Chars?.eq_3 _ _ _ hd, readBase64Two?_digits (by omega) (by omega),
      ofNat_eq (a := a) (by omega), ofNat_eq (a := b) (by omega)]
  | case4 a b c rest ih =>
    have ha := a.toNat_lt
    have hb := b.toNat_lt
    have hc := c.toNat_lt
    have hd := (base64Value?_digit
      (((a.toNat * 256 + b.toNat) * 256 + c.toNat) % 64) (by omega)).2
    rw [base64Chars, readBase64Chars?.eq_4, readBase64Three?_digits (by omega), ih,
      ofNat_eq (a := a) (by omega), ofNat_eq (a := b) (by omega), ofNat_eq (a := c) (by omega)]
    · rfl
    · exact fun _ he => absurd he hd
    · exact fun he => absurd he hd

/-- A byte string is read from its text. -/
theorem readBase64?_base64 (bs : Bytes) : readBase64? (base64 bs) = some bs := by
  unfold readBase64? base64
  rw [String.toList_ofList]
  exact readBase64Chars?_base64Chars bs

end ChainIndexer.Text
