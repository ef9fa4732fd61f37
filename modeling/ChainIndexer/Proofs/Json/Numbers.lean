import ChainIndexer.Proofs.Json.Lexing
import ChainIndexer.Proofs.Text.Numeral
import Mathlib.Data.List.DropRight

/-
  Numbers, written and read again.

  The text of a number is a `Magnitude` behind an optional sign, whatever the number: digits, an
  optional fraction and an optional exponent. Such a text is always read as a number, and
  completely (`readNumber_numberChars`). What it is read as is `JsonNumber.reread`. That is the
  number itself if it is whole and fits 64 bits (`reread_whole`). For a binary number it need not
  be: the reader rounds the digits once and their scale a second time.
-/

namespace ChainIndexer

open Number

/-- What is read where a number was written. -/
def JsonNumber.reread (n : JsonNumber) : Json :=
  ((Json.readNumber (Json.numberChars n)).map Prod.fst).getD .unreadable

/-- A whole number fits 64 bits, with a sign if it is negative. -/
def JsonNumber.Fits : JsonNumber → Prop
  | .whole z => -(Text.maxSigned64 : Int) - 1 ≤ z ∧ z ≤ Text.maxWord64
  | .binary _ => True

namespace Json

/-! ## Runs of digits -/

/-- Digits, at least one. -/
structure Digits (ds : List Char) : Prop where
  nonempty : ds ≠ []
  digit : ∀ c ∈ ds, c.isDigit = true

/-- Digits as they stand at the beginning of a number: a zero stands alone. -/
structure Leading (ds : List Char) : Prop extends Digits ds where
  zero : ds.head? = some '0' → ds = ['0']

theorem digits_zero : Digits ['0'] :=
  ⟨nofun, List.forall_mem_singleton.2 rfl⟩

theorem digits_toDigits (n : Nat) : Digits (Nat.toDigits 10 n) :=
  ⟨Nat.toDigits_ne_nil, fun _ => Text.isDigit_of_mem_toDigits⟩

theorem leading_toDigits (n : Nat) : Leading (Nat.toDigits 10 n) where
  toDigits := digits_toDigits n
  zero hz := by
    by_cases hn : n = 0
    · rw [hn]
      rfl
    · exact absurd hz (Text.head_toDigits_ne hn)

theorem readDigitRun_of_digits {ds : List Char} (h : Digits ds) :
    readDigitRun ds = some (ds, []) := by
  unfold readDigitRun
  dsimp only
  rw [List.takeWhile_eq_self_iff.2 h.digit, List.dropWhile_eq_nil_iff.2 h.digit, if_neg h.nonempty]

theorem readIntegerRun_of_leading {ds : List Char} (h : Leading ds) :
    readIntegerRun ds = some (ds, []) := by
  cases ds with
  | nil => exact absurd rfl h.nonempty
  | cons c cs =>
    by_cases hc : c = '0'
    · rw [h.zero (congrArg some hc)]
      rfl
    · rw [readIntegerRun_of_ne hc]
      exact readDigitRun_of_digits h.toDigits

theorem ne_minus {ds : List Char} (h : Digits ds) (cs tail : List Char) :
    ds ++ cs ≠ '-' :: tail := by
  intro he
  cases ds with
  | nil => exact h.nonempty rfl
  | cons c ds =>
    have hd := h.digit c List.mem_cons_self
    rw [(List.cons.inj he).1] at hd
    exact absurd hd (by decide)

/-! ## The shape of a number -/

/-- An exponent, or nothing. -/
inductive Scale : List Char → Prop
  | absent : Scale []
  | written (z : Int) : Scale ('e' :: (Text.integerText z).toList)

/-- A number without its sign. -/
inductive Magnitude : List Char → Prop
  | whole {ds es : List Char} (front : Leading ds) (scale : Scale es) : Magnitude (ds ++ es)
  | pointed {ds fs es : List Char} (front : Leading ds) (fraction : Digits fs) (scale : Scale es) :
    Magnitude (ds ++ '.' :: (fs ++ es))

theorem head_of_scale {es : List Char} (h : Scale es) : ∀ c ∈ es.head?, c = 'e' := by
  intro c hc
  cases h with
  | absent => exact absurd hc nofun
  | written z => exact (Option.some.inj hc).symm

theorem not_digit_of_scale {es : List Char} (h : Scale es) : ∀ c ∈ es.head?, c.isDigit = false := by
  intro c hc
  rw [head_of_scale h c hc]
  decide

theorem readScale_of_scale {es : List Char} (h : Scale es) : ∃ e, readScale es = some (e, []) := by
  cases h with
  | absent => exact ⟨none, rfl⟩
  | written z =>
    rw [readScale, Text.toList_integerText]
    have hd := digits_toDigits z.natAbs
    split
    · rw [readExponent, readDigitRun_of_digits hd]
      exact ⟨_, rfl⟩
    · rw [readExponent.eq_3, readDigitRun_of_digits hd]
      · exact ⟨_, rfl⟩
      · intro tail he
        have hc := hd.digit '+' (by rw [he]; exact List.mem_cons_self)
        exact absurd hc (by decide)
      · intro tail he
        have hc := hd.digit '-' (by rw [he]; exact List.mem_cons_self)
        exact absurd hc (by decide)

/-- A number without its sign is read, and completely. -/
theorem readMagnitude_of_magnitude {cs : List Char} (h : Magnitude cs) (negative : Bool) :
    ∃ v, readMagnitude negative cs = some (v, []) := by
  cases h with
  | @whole ds es front scale =>
    obtain ⟨e, he⟩ := readScale_of_scale scale
    have hp : ∀ tail, es ≠ '.' :: tail := by
      rintro tail rfl
      exact absurd (head_of_scale scale '.' rfl) (by decide)
    rw [readMagnitude_eq, readIntegerRun_append (not_digit_of_scale scale),
      readIntegerRun_of_leading front]
    simp only [Option.map_some, Option.bind_some, followed, List.nil_append]
    rw [readBehind.eq_2 _ _ _ hp, he]
    exact ⟨_, rfl⟩
  | @pointed ds fs es front fraction scale =>
    obtain ⟨e, he⟩ := readScale_of_scale scale
    rw [readMagnitude_eq, readIntegerRun_append (by rintro c ⟨⟩; decide),
      readIntegerRun_of_leading front]
    simp only [Option.map_some, Option.bind_some, followed, List.nil_append]
    rw [readBehind, readDigitRun_append (not_digit_of_scale scale), readDigitRun_of_digits fraction]
    simp only [Option.map_some, Option.bind_some, followed, List.nil_append]
    rw [he]
    exact ⟨_, rfl⟩

/-! ## The digits of a binary number -/

/-- Digits without a zero in front, or the single digit of zero. -/
structure Significant (ds : List Char) (exponent : Int) : Prop extends Digits ds where
  zero : ds.head? = some '0' → ds = ['0'] ∧ exponent = 0

theorem Significant.leading {ds : List Char} {exponent : Int} (h : Significant ds exponent) :
    Leading ds :=
  ⟨h.toDigits, fun hz => (h.zero hz).1⟩

theorem significant_shortestDigits (x : Binary64) :
    Significant x.shortestDigits.1 x.shortestDigits.2 := by
  unfold Binary64.shortestDigits
  obtain ⟨n, exponent⟩ := x.shortest
  dsimp only
  split
  · exact ⟨digits_zero, fun _ => ⟨rfl, rfl⟩⟩
  · rename_i hn
    -- What is kept begins as the digits do, whose first is no zero.
    obtain ⟨c, cs, hc⟩ := List.exists_cons_of_ne_nil (digits_toDigits n).nonempty
    have hz : c ≠ '0' := by
      rintro rfl
      exact Text.head_toDigits_ne hn (by rw [hc]; rfl)
    have hk : (Binary64.stripZeros (Nat.toDigits 10 n) exponent).1 <+: Nat.toDigits 10 n :=
      List.rdropWhile_prefix (· == '0') (Nat.toDigits 10 n)
    have hne : (Binary64.stripZeros (Nat.toDigits 10 n) exponent).1 ≠ [] := by
      intro he
      have ha := List.rdropWhile_eq_nil_iff.1 he c (by rw [hc]; exact List.mem_cons_self)
      exact hz (beq_iff_eq.1 ha)
    refine ⟨⟨hne, fun d hd => (digits_toDigits n).digit d (hk.subset hd)⟩, fun hh => ?_⟩
    obtain ⟨d, ds, hd⟩ := List.exists_cons_of_ne_nil hne
    rw [hd] at hk hh
    rw [hc] at hk
    exact absurd ((List.cons_prefix_cons.1 hk).1.symm.trans (Option.some.inj hh)) hz

theorem digits_append_zeros {ds : List Char} (h : Digits ds) (k : Nat) :
    Digits (ds ++ List.replicate k '0') where
  nonempty := by simp [h.nonempty]
  digit c hc := by
    rcases List.mem_append.1 hc with hc | hc
    · exact h.digit c hc
    · rw [List.eq_of_mem_replicate hc]
      decide

theorem digits_zeros_append {ds : List Char} (h : Digits ds) (k : Nat) :
    Digits (List.replicate k '0' ++ ds) where
  nonempty := by simp [h.nonempty]
  digit c hc := by
    rcases List.mem_append.1 hc with hc | hc
    · rw [List.eq_of_mem_replicate hc]
      decide
    · exact h.digit c hc

theorem leading_zero : Leading ['0'] :=
  ⟨digits_zero, fun _ => rfl⟩

theorem magnitude_pointedDigits {ds : List Char} {exponent : Int} (h : Significant ds exponent) :
    Magnitude (Binary64.pointedDigits ds exponent) := by
  unfold Binary64.pointedDigits
  dsimp only
  split
  · have hl : Leading (ds ++ List.replicate exponent.toNat '0') := by
      refine ⟨digits_append_zeros h.toDigits _, fun hz => ?_⟩
      rw [List.head?_append, Option.or_of_isSome (by simpa using h.nonempty)] at hz
      obtain ⟨hd, he⟩ := h.zero hz
      rw [hd, he]
      rfl
    exact .pointed hl digits_zero .absent
  split
  · rename_i hn hp
    obtain ⟨k, hk⟩ : ∃ k : Nat, (ds.length : Int) + exponent = k + 1 :=
      ⟨((ds.length : Int) + exponent - 1).toNat, by omega⟩
    rw [hk]
    have hf : Leading (ds.take (k + 1)) := by
      refine ⟨⟨?_, fun c hc => h.digit c (List.mem_of_mem_take hc)⟩, fun hz => ?_⟩
      · simp [h.nonempty]
      · rw [List.head?_take, if_neg (Nat.succ_ne_zero k)] at hz
        rw [(h.zero hz).1, List.take_succ_cons, List.take_nil]
    have hb : Digits (ds.drop (k + 1)) := by
      refine ⟨fun he => ?_, fun c hc => h.digit c (List.mem_of_mem_drop hc)⟩
      have hl := List.drop_eq_nil_iff.1 he
      omega
    have hm := Magnitude.pointed hf hb .absent
    rw [List.append_nil] at hm
    exact hm
  · have hm := Magnitude.pointed leading_zero
      (digits_zeros_append h.toDigits (-((ds.length : Int) + exponent)).toNat) .absent
    rw [List.append_nil] at hm
    exact hm

theorem magnitude_scientificChars {ds : List Char} {exponent : Int} (h : Significant ds exponent) :
    Magnitude (Binary64.scientificChars ds exponent) := by
  have leading : ∀ c : Char, c.isDigit = true → Leading [c] := fun c hc =>
    ⟨⟨nofun, by simpa using hc⟩, by simp⟩
  unfold Binary64.scientificChars
  cases ds with
  | nil => exact absurd rfl h.nonempty
  | cons d ds =>
    have hd := leading d (h.digit d List.mem_cons_self)
    cases ds with
    | nil => exact .whole hd (.written _)
    | cons e ds =>
      have hf : Digits (e :: ds) := ⟨nofun, fun c hc => h.digit c (List.mem_cons_of_mem d hc)⟩
      exact .pointed hd hf (.written _)

/-! ## Reading what was written -/

/-- The text of a number is a magnitude, with a minus sign or without. -/
theorem numberChars_shape (n : JsonNumber) :
    ∃ cs, Magnitude cs ∧ (numberChars n = cs ∨ numberChars n = '-' :: cs) := by
  cases n with
  | whole z =>
    have hm : Magnitude (Nat.toDigits 10 z.natAbs) := by
      have hw := Magnitude.whole (leading_toDigits z.natAbs) .absent
      rw [List.append_nil] at hw
      exact hw
    refine ⟨_, hm, ?_⟩
    rw [numberChars, Text.toList_integerText]
    split
    · exact .inr rfl
    · exact .inl rfl
  | binary x =>
    have hs : ∀ cs, (x.signed cs).toList = cs ∨ (x.signed cs).toList = '-' :: cs := by
      intro cs
      unfold Binary64.signed
      rw [String.toList_ofList]
      split
      · exact .inr rfl
      · exact .inl rfl
    have h := significant_shortestDigits x
    rw [numberChars]
    unfold Binary64.text
    dsimp only
    split
    · exact ⟨_, magnitude_pointedDigits h, hs _⟩
    · exact ⟨_, magnitude_scientificChars h, hs _⟩

theorem digits_append_of_magnitude {cs : List Char} (h : Magnitude cs) :
    ∃ ds rest, Digits ds ∧ cs = ds ++ rest := by
  cases h with
  | whole front _ => exact ⟨_, _, front.toDigits, rfl⟩
  | pointed front _ _ => exact ⟨_, _, front.toDigits, rfl⟩

theorem readNumber_of_magnitude {cs : List Char} (h : Magnitude cs) :
    readNumber cs = readMagnitude false cs := by
  obtain ⟨ds, rest, hd, rfl⟩ := digits_append_of_magnitude h
  rw [readNumber.eq_2 _ (ne_minus hd rest)]

theorem readNumber_numberChars_nil (n : JsonNumber) :
    readNumber (numberChars n) = some (n.reread, []) := by
  have he : ∃ v, readNumber (numberChars n) = some (v, []) := by
    obtain ⟨cs, hm, hn | hn⟩ := numberChars_shape n
    · rw [hn, readNumber_of_magnitude hm]
      exact readMagnitude_of_magnitude hm false
    · rw [hn]
      exact readMagnitude_of_magnitude hm true
  obtain ⟨v, hv⟩ := he
  rw [JsonNumber.reread, hv]
  rfl

/-- In front of a text that closes it, a number is read completely. -/
theorem readNumber_numberChars {rest : List Char} (h : Closes rest) (n : JsonNumber) :
    readNumber (numberChars n ++ rest) = some (n.reread, rest) := by
  rw [readNumber_append h, readNumber_numberChars_nil]
  rfl

theorem foldDigits_of_le {cs : List Char} {acc : Nat}
    (h : Nat.ofDigitChars 10 cs acc ≤ Text.maxWord64) :
    foldDigits cs acc = (Nat.ofDigitChars 10 cs acc, []) := by
  induction cs generalizing acc with
  | nil => rfl
  | cons c cs ih =>
    rw [Nat.ofDigitChars_cons, Nat.mul_comm] at h ⊢
    rw [foldDigits]
    simp only [if_pos (Nat.le_trans (Text.le_ofDigitChars cs _) h)]
    exact ih h

theorem wholeNumber?_toDigits {n : Nat} (h : n ≤ Text.maxWord64) (negative : Bool) :
    wholeNumber? negative (Nat.toDigits 10 n) =
      if !negative then some (.whole n)
      else if 0 < n ∧ n ≤ Text.maxSigned64 + 1 then some (.whole (-(n : Int)))
      else (Binary64.ofScaled true n 0).map .binary := by
  have hv : Nat.ofDigitChars 10 (Nat.toDigits 10 n) 0 = n := Nat.ofDigitChars_ten_toDigits
  unfold wholeNumber?
  rw [foldDigits_of_le (hv.symm ▸ h), hv]
  rfl

theorem readMagnitude_toDigits (negative : Bool) (n : Nat) :
    readMagnitude negative (Nat.toDigits 10 n) =
      some (((wholeNumber? negative (Nat.toDigits 10 n)).map number).getD unreadable, []) := by
  rw [readMagnitude_eq, readIntegerRun_of_leading (leading_toDigits n)]
  rfl

/-- A whole number that fits is read as itself. -/
theorem reread_whole {z : Int} (h : (JsonNumber.whole z).Fits) :
    (JsonNumber.whole z).reread = .number (.whole z) := by
  obtain ⟨low, high⟩ := h
  have hm := readNumber_numberChars_nil (.whole z)
  have hw : z.natAbs ≤ Text.maxWord64 := by
    unfold Text.maxSigned64 at low
    unfold Text.maxWord64 at high ⊢
    omega
  rw [numberChars, Text.toList_integerText] at hm
  split at hm
  · rename_i hz
    rw [readNumber, readMagnitude_toDigits, wholeNumber?_toDigits hw, if_neg (by decide),
      if_pos (by omega)] at hm
    rw [← (Prod.mk.inj (Option.some.inj hm)).1]
    exact congrArg (fun i => number (.whole i)) (show -(z.natAbs : Int) = z by omega)
  · rename_i hz
    have hn := ne_minus (digits_toDigits z.natAbs) []
    rw [List.append_nil] at hn
    rw [readNumber.eq_2 _ hn, readMagnitude_toDigits, wholeNumber?_toDigits hw,
      if_pos (by decide)] at hm
    rw [← (Prod.mk.inj (Option.some.inj hm)).1]
    exact congrArg (fun i => number (.whole i)) (show (z.natAbs : Int) = z by omega)

/-- A number begins with a digit or a minus sign. -/
theorem head_numberChars (n : JsonNumber) :
    ∃ c cs, numberChars n = c :: cs ∧ (c.isDigit = true ∨ c = '-') := by
  obtain ⟨cs, hm, hn | hn⟩ := numberChars_shape n
  · obtain ⟨ds, rest, hd, rfl⟩ := digits_append_of_magnitude hm
    obtain ⟨c, ds, rfl⟩ := List.exists_cons_of_ne_nil hd.nonempty
    exact ⟨c, ds ++ rest, hn, .inl (hd.digit c List.mem_cons_self)⟩
  · exact ⟨'-', cs, hn, .inr rfl⟩

/-! ## Lines -/

theorem le_of_isDigit {c : Char} (h : c.isDigit = true) : 32 ≤ c.toNat :=
  Nat.le_trans (by decide) (Char.isDigit_iff_toNat.1 h).1

theorem le_of_mem_digits {ds : List Char} (h : Digits ds) : ∀ c ∈ ds, 32 ≤ c.toNat :=
  fun c hc => le_of_isDigit (h.digit c hc)

theorem le_of_mem_integerText (z : Int) : ∀ c ∈ (Text.integerText z).toList, 32 ≤ c.toNat := by
  have hd := le_of_mem_digits (digits_toDigits z.natAbs)
  rw [Text.toList_integerText]
  split
  · exact List.forall_mem_cons.2 ⟨by decide, hd⟩
  · exact hd

theorem le_of_mem_scale {es : List Char} (h : Scale es) : ∀ c ∈ es, 32 ≤ c.toNat := by
  cases h with
  | absent => exact nofun
  | written z => exact List.forall_mem_cons.2 ⟨by decide, le_of_mem_integerText z⟩

theorem le_of_mem_magnitude {cs : List Char} (h : Magnitude cs) : ∀ c ∈ cs, 32 ≤ c.toNat := by
  cases h with
  | whole front scale =>
    exact List.forall_mem_append.2 ⟨le_of_mem_digits front.toDigits, le_of_mem_scale scale⟩
  | pointed front fraction scale =>
    have hf := List.forall_mem_append.2 ⟨le_of_mem_digits fraction, le_of_mem_scale scale⟩
    exact List.forall_mem_append.2
      ⟨le_of_mem_digits front.toDigits, List.forall_mem_cons.2 ⟨by decide, hf⟩⟩

/-- None of the characters of a number breaks a line. -/
theorem le_of_mem_numberChars {n : JsonNumber} : ∀ c ∈ numberChars n, 32 ≤ c.toNat := by
  obtain ⟨cs, hm, hn | hn⟩ := numberChars_shape n
  · rw [hn]
    exact le_of_mem_magnitude hm
  · rw [hn]
    exact List.forall_mem_cons.2 ⟨by decide, le_of_mem_magnitude hm⟩

end Json

end ChainIndexer
