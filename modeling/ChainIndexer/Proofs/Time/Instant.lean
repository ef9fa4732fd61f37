import ChainIndexer.Time.Instant
import ChainIndexer.Proofs.Text.Blank
import ChainIndexer.Proofs.Text.Numeral
import ChainIndexer.Proofs.Time.Calendar
import Mathlib.Data.Nat.Digits.Defs
import Mathlib.Data.List.TakeWhile

/-
  The text of an instant, read again.

  A number in digits that fill its width is read completely, whatever follows (`readNumber_padded`),
  and so is each part of a date and a clock. The day number of the date gives the seconds back, so
  every instant is read from its text (`read?_text`): years of any sign, fractions of any length and
  leap seconds.
-/

namespace ChainIndexer.Instant

open Time Text

/-! ## Digits that fill a width -/

theorem isDigit_of_mem_padded {width n : Nat} {c : Char} (h : c ∈ padded width n) :
    c.isDigit = true := by
  rcases List.mem_append.1 h with h | h
  · rw [List.eq_of_mem_replicate h]
    decide
  · exact isDigit_of_mem_toDigits h

theorem length_padded {width n : Nat} (hw : 0 < width) (hn : n < 10 ^ width) :
    (padded width n).length = width := by
  have hl := Nat.toDigits_length 10 n width hw hn
  unfold padded
  rw [List.length_append, List.length_replicate]
  omega

theorem padded_ne_nil (width n : Nat) : padded width n ≠ [] := by
  unfold padded
  exact fun h => Nat.toDigits_ne_nil (List.append_eq_nil_iff.1 h).2

theorem ofDigitChars_padded (width n : Nat) : Nat.ofDigitChars 10 (padded width n) 0 = n := by
  unfold padded
  rw [Nat.ofDigitChars_append, Nat.ofDigitChars_replicate_zero, Nat.mul_zero,
    Nat.ofDigitChars_ten_toDigits]

theorem trimStart_padded (width n : Nat) (rest : List Char) :
    trimStart (padded width n ++ rest) = padded width n ++ rest := by
  refine trimStart_eq_self fun c hc => isBlank_of_isDigit ?_
  obtain ⟨d, ds, hd⟩ := List.exists_cons_of_ne_nil (padded_ne_nil width n)
  rw [hd] at hc
  rw [← Option.some.inj hc]
  exact isDigit_of_mem_padded (by rw [hd]; exact List.mem_cons_self)

/-- Digits that fill their width are read completely. -/
theorem readNumber_padded {width n : Nat} (hw : 0 < width) (hn : n < 10 ^ width)
    (rest : List Char) : readNumber width (padded width n ++ rest) = some (n, rest) := by
  have hl := length_padded hw hn
  have ht : (padded width n ++ rest).take width = padded width n := List.take_left' hl
  have hd : (padded width n ++ rest).drop width = rest := List.drop_left' hl
  have hr : (padded width n).takeWhile Char.isDigit = padded width n :=
    List.takeWhile_eq_self_iff.2 fun c hc => isDigit_of_mem_padded hc
  unfold readNumber
  rw [trimStart_padded]
  simp only [ht, hr, if_neg (padded_ne_nil width n), hl, hd, ofDigitChars_padded]

theorem readPart_padded {l h n : Nat} (hb : l ≤ n ∧ n ≤ h) (hn : n < 100) (rest : List Char) :
    readPart l h (padded 2 n ++ rest) = some (n, rest) := by
  unfold readPart
  rw [readNumber_padded (by decide) hn]
  exact if_pos hb

theorem readMark_cons (mark : Char) (h : isBlank mark = false) (rest : List Char) :
    readMark mark (mark :: rest) = some rest := by
  unfold readMark
  rw [trimStart_eq_self fun c hc => by rw [← Option.some.inj hc]; exact h]
  exact if_pos rfl

theorem takeWhile_padded {width n : Nat} {c : Char} (h : c.isDigit = false) (rest : List Char) :
    (padded width n ++ c :: rest).takeWhile Char.isDigit = padded width n := by
  rw [List.takeWhile_append_of_pos fun d hd => isDigit_of_mem_padded hd,
    List.takeWhile_cons_of_neg (by simp [h]), List.append_nil]

theorem dropWhile_padded {width n : Nat} {c : Char} (h : c.isDigit = false) (rest : List Char) :
    (padded width n ++ c :: rest).dropWhile Char.isDigit = c :: rest := by
  rw [List.dropWhile_append_of_pos fun d hd => isDigit_of_mem_padded hd,
    List.dropWhile_cons_of_neg (by simp [h])]

/-! ## Dates -/

theorem readYear_yearChars (year : Int) (rest : List Char) :
    readYear (yearChars year ++ '-' :: rest) = some (year, '-' :: rest) := by
  have hs : ∀ c cs, isBlank c = false → trimStart (c :: cs) = c :: cs := fun c cs hc =>
    trimStart_eq_self fun d hd => by rw [← Option.some.inj hd]; exact hc
  unfold yearChars
  split
  · obtain ⟨d, ds, hd⟩ := List.exists_cons_of_ne_nil (padded_ne_nil 4 year.toNat)
    have hdd : d.isDigit = true := isDigit_of_mem_padded (by rw [hd]; exact List.mem_cons_self)
    have hy : year.toNat < 10 ^ 4 := by omega
    have hn := readNumber_padded (by decide) hy ('-' :: rest)
    unfold readYear
    rw [trimStart_padded]
    rw [hd] at hn ⊢
    split
    · rename_i he
      rw [(List.cons.inj he).1] at hdd
      exact absurd hdd (by decide)
    · rename_i he
      rw [(List.cons.inj he).1] at hdd
      exact absurd hdd (by decide)
    · rw [hn]
      exact congrArg (fun y => some (y, '-' :: rest)) (show (year.toNat : Int) = year by omega)
  · by_cases hy : year < 0
    · rw [if_pos hy, List.cons_append]
      unfold readYear
      rw [hs _ _ (by decide)]
      simp only [takeWhile_padded (c := '-') (by decide), dropWhile_padded (c := '-') (by decide),
        if_neg (padded_ne_nil 4 year.natAbs), ofDigitChars_padded]
      exact congrArg (fun y => some (y, '-' :: rest)) (show -(year.natAbs : Int) = year by omega)
    · rw [if_neg hy, List.cons_append]
      unfold readYear
      rw [hs _ _ (by decide)]
      simp only [takeWhile_padded (c := '-') (by decide), dropWhile_padded (c := '-') (by decide),
        if_neg (padded_ne_nil 4 year.natAbs), ofDigitChars_padded]
      exact congrArg (fun y => some (y, '-' :: rest)) (show (year.natAbs : Int) = year by omega)

theorem monthLength_le (year : Int) (month : Nat) : monthLength year month ≤ 31 := by
  unfold monthLength
  split
  · split <;> decide
  · split <;> decide

theorem readDate_chars {date : Date} (valid : date.IsValid) (known : isKnownYear date.year = true)
    (rest : List Char) :
    readDate (yearChars date.year ++ '-' :: (padded 2 date.month ++ '-' ::
      (padded 2 date.day ++ rest))) = some (date, rest) := by
  obtain ⟨hm, hm', hd, hd'⟩ := valid
  have hl := Nat.le_trans hd' (monthLength_le date.year date.month)
  unfold readDate
  simp only [readYear_yearChars, Option.bind_eq_bind, Option.bind_some,
    readMark_cons '-' (by decide), readPart_padded ⟨hm, hm'⟩ (by omega),
    readPart_padded ⟨hd, hl⟩ (by omega)]
  exact if_pos ⟨⟨hm, hm', hd, hd'⟩, known⟩

/-! ## Clocks -/

theorem readFraction_padded {width n : Nat} (hw : 0 < width) (h9 : width ≤ 9)
    (hn : n < 10 ^ width) {c : Char} (hc : c.isDigit = false) (rest : List Char) :
    readFraction ('.' :: (padded width n ++ c :: rest))
      = some (n * 10 ^ (9 - width), c :: rest) := by
  have hl := length_padded hw hn
  have ht : (padded width n).take 9 = padded width n := List.take_of_length_le (by omega)
  unfold readFraction
  simp only [takeWhile_padded hc, dropWhile_padded hc, if_neg (padded_ne_nil width n), ht,
    ofDigitChars_padded, hl]
  rfl

theorem readFraction_fractionChars {nanos : Nat} (hn : nanos < nanosPerSecond) (rest : List Char) :
    readFraction (fractionChars nanos ++ 'Z' :: rest) = some (nanos, 'Z' :: rest) := by
  unfold nanosPerSecond at hn
  unfold fractionChars
  split
  · rename_i hz
    rw [hz]
    rfl
  split
  · rw [List.cons_append, readFraction_padded (by decide) (by decide) (by omega) (by decide)]
    exact congrArg (fun n => some (n, 'Z' :: rest)) (by omega)
  split
  · rw [List.cons_append, readFraction_padded (by decide) (by decide) (by omega) (by decide)]
    exact congrArg (fun n => some (n, 'Z' :: rest)) (by omega)
  · rw [List.cons_append, readFraction_padded (by decide) (by decide) (by omega) (by decide)]
    exact congrArg (fun n => some (n, 'Z' :: rest)) (by omega)

/-- The clock of a second of the day, which may be a leap second if it ends a minute. -/
theorem readClock_chars {clock nanos : Nat} (hc : clock < 86400) (hn : nanos < nanosPerSecond)
    (rest : List Char) :
    readClock (padded 2 (clock / 3600) ++ ':' :: (padded 2 (clock / 60 % 60) ++ ':' ::
        (padded 2 (clock % 60) ++ (fractionChars nanos ++ 'Z' :: rest))))
      = some ((clock, nanos), 'Z' :: rest) := by
  unfold readClock
  simp only [Option.bind_eq_bind, Option.bind_some, readMark_cons ':' (by decide),
    readPart_padded (l := 0) (h := 23) (n := clock / 3600) (by omega) (by omega),
    readPart_padded (l := 0) (h := 59) (n := clock / 60 % 60) (by omega) (by omega),
    readPart_padded (l := 0) (h := 60) (n := clock % 60) (by omega) (by omega),
    readFraction_fractionChars hn]
  rw [if_neg (by omega)]
  exact congrArg (fun m => some ((m, nanos), 'Z' :: rest)) (by omega)

theorem readClock_leap {clock nanos : Nat} (hc : clock < 86400) (hl : clock % 60 = 59)
    (hn : nanos < nanosPerSecond) (rest : List Char) :
    readClock (padded 2 (clock / 3600) ++ ':' :: (padded 2 (clock / 60 % 60) ++ ':' ::
        (padded 2 (clock % 60 + 1) ++ (fractionChars nanos ++ 'Z' :: rest))))
      = some ((clock, nanos + nanosPerSecond), 'Z' :: rest) := by
  unfold readClock
  simp only [Option.bind_eq_bind, Option.bind_some, readMark_cons ':' (by decide),
    readPart_padded (l := 0) (h := 23) (n := clock / 3600) (by omega) (by omega),
    readPart_padded (l := 0) (h := 59) (n := clock / 60 % 60) (by omega) (by omega),
    readPart_padded (l := 0) (h := 60) (n := clock % 60 + 1) (by omega) (by omega),
    readFraction_fractionChars hn]
  rw [if_pos (by omega)]
  exact congrArg (fun m => some ((m, nanos + nanosPerSecond), 'Z' :: rest)) (by omega)

/-! ## Instants -/

theorem ofParts?_self (t : Instant) : ofParts? t.seconds t.nanos = some t :=
  dif_pos t.parts

/-- Signed parts are those of the instant that has them. -/
theorem ofSigned?_eq_some_iff {parts : Int × Int} {t : Instant} :
    ofSigned? parts.1 parts.2 = some t ↔ parts = (t.seconds, (t.nanos : Int)) := by
  unfold ofSigned?
  constructor
  · intro h
    split at h
    · cases h
    · rename_i hn
      unfold ofParts? at h
      split at h
      · obtain rfl := Option.some.inj h
        exact Prod.ext rfl (Int.toNat_of_nonneg (Int.not_lt.1 hn)).symm
      · cases h
  · rintro rfl
    rw [if_neg (Int.not_lt.2 (Int.natCast_nonneg _))]
    exact ofParts?_self t

theorem isKnownYear_dateOfDay (t : Instant) :
    isKnownYear (dateOfDay (t.seconds / 86400)).year = true := by
  obtain ⟨low, high, _⟩ := t.parts
  obtain ⟨hl, hh⟩ := year_dateOfDay (n := t.seconds / 86400) (by omega)
  unfold isKnownYear
  rw [Bool.and_eq_true, decide_eq_true_eq, decide_eq_true_eq]
  exact ⟨hl, hh⟩

/-- A date and a clock in front of the mark of UTC. -/
theorem readChars?_of_parts {t : Instant} {cs : List Char}
    (h : readClock cs = some (((t.seconds % 86400).toNat, t.nanos), ['Z'])) :
    readChars? (yearChars (dateOfDay (t.seconds / 86400)).year ++ '-' ::
      (padded 2 (dateOfDay (t.seconds / 86400)).month ++ '-' ::
      (padded 2 (dateOfDay (t.seconds / 86400)).day ++ 'T' :: cs))) = some t := by
  have ho : trimStart ['Z'] = ['Z'] := by decide
  have hz : readOffset ['Z'] = some (0, []) := rfl
  have hs : dayOfDate (dateOfDay (t.seconds / 86400)) * 86400
      + ((t.seconds % 86400).toNat : Int) - 0 = t.seconds := by
    rw [dayOfDate_dateOfDay]
    omega
  unfold readChars?
  simp only [readDate_chars (isValid_dateOfDay _) (isKnownYear_dateOfDay t), Option.bind_eq_bind,
    Option.bind_some, h, ho, hz, hs, ofParts?_self]
  exact if_pos rfl

/-- An instant is read from its text. -/
theorem read?_text (t : Instant) : read? t.text = some t := by
  have hc : (t.seconds % 86400).toNat < 86400 := by omega
  obtain ⟨_, _, hn, hl⟩ := t.parts
  unfold read? text
  rw [String.toList_ofList]
  unfold chars
  by_cases hp : nanosPerSecond ≤ t.nanos
  · have hm : (t.seconds % 86400).toNat % 60 = 59 := by omega
    have hs : t.nanos - nanosPerSecond < nanosPerSecond := by omega
    have hr := readClock_leap hc hm hs []
    rw [Nat.sub_add_cancel hp] at hr
    simp only [if_pos hp, List.append_assoc, List.cons_append]
    exact readChars?_of_parts hr
  · have hr := readClock_chars hc (Nat.lt_of_not_le hp) []
    simp only [if_neg hp, List.append_assoc, List.cons_append]
    exact readChars?_of_parts hr

end ChainIndexer.Instant
