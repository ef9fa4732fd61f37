import ChainIndexer.Json.Reader

/-
  Where a number ends.

  A number goes on for as long as its characters do. In front of a text that `Closes` it, nothing
  else is read than if the text were not there (`readNumber_append`). `Run` says which digits may
  stand in front of a point, and the readers take all of them (`readIntegerRun_append`).
-/

namespace ChainIndexer.Json

/-- A text in front of which a number is complete. -/
def Closes (rest : List Char) : Prop :=
  ∀ c ∈ rest.head?, c.isDigit = false ∧ c ∉ ['.', 'e', 'E', '+', '-']

theorem closes_nil : Closes [] :=
  nofun

theorem closes_cons {c : Char} {rest : List Char} (hd : c.isDigit = false)
    (hc : c ∉ ['.', 'e', 'E', '+', '-']) : Closes (c :: rest) := by
  intro d hm
  obtain rfl := Option.some.inj hm
  exact ⟨hd, hc⟩

variable {rest : List Char}

/-- What has been read in front of a text leaves the text. -/
def followed (rest : List Char) (p : α × List Char) : α × List Char :=
  (p.1, p.2 ++ rest)

/-! ## Digits -/

theorem takeWhile_append (h : ∀ c ∈ rest.head?, c.isDigit = false) (cs : List Char) :
    (cs ++ rest).takeWhile Char.isDigit = cs.takeWhile Char.isDigit := by
  induction cs with
  | nil =>
    cases rest with
    | nil => rfl
    | cons c rest => simp [h c rfl]
  | cons c cs ih =>
    rw [List.cons_append, List.takeWhile_cons, List.takeWhile_cons, ih]

theorem dropWhile_append (h : ∀ c ∈ rest.head?, c.isDigit = false) (cs : List Char) :
    (cs ++ rest).dropWhile Char.isDigit = cs.dropWhile Char.isDigit ++ rest := by
  induction cs with
  | nil =>
    cases rest with
    | nil => rfl
    | cons c rest => simp [h c rfl]
  | cons c cs ih =>
    rw [List.cons_append, List.dropWhile_cons, List.dropWhile_cons, ih]
    split
    · rfl
    · rfl

theorem readDigitRun_append (h : ∀ c ∈ rest.head?, c.isDigit = false) (cs : List Char) :
    readDigitRun (cs ++ rest) = (readDigitRun cs).map (followed rest) := by
  unfold readDigitRun
  dsimp only
  rw [takeWhile_append h, dropWhile_append h]
  split
  · rfl
  · rfl

theorem readIntegerRun_of_ne {c : Char} (h : c ≠ '0') (cs : List Char) :
    readIntegerRun (c :: cs) = readDigitRun (c :: cs) := by
  rw [readIntegerRun]
  intro rest hc
  exact absurd (List.cons.inj hc).1 h

theorem readIntegerRun_append (h : ∀ c ∈ rest.head?, c.isDigit = false) (cs : List Char) :
    readIntegerRun (cs ++ rest) = (readIntegerRun cs).map (followed rest) := by
  cases cs with
  | nil =>
    cases rest with
    | nil => rfl
    | cons c rest =>
      have hc : c ≠ '0' := by
        rintro rfl
        exact absurd (h '0' rfl) (by decide)
      rw [List.nil_append, readIntegerRun_of_ne hc]
      exact readDigitRun_append h []
  | cons c cs =>
    by_cases hc : c = '0'
    · subst hc
      cases cs with
      | nil =>
        cases rest with
        | nil => rfl
        | cons d rest => simp [readIntegerRun, h d rfl, followed]
      | cons d cs =>
        simp only [List.cons_append, readIntegerRun]
        split
        · rfl
        · rfl
    · rw [List.cons_append, readIntegerRun_of_ne hc, readIntegerRun_of_ne hc, ← List.cons_append]
      exact readDigitRun_append h (c :: cs)

/-! ## Numbers -/

theorem head_append_ne {c : Char} (h : Closes rest) (hc : c ∈ ['.', 'e', 'E', '+', '-'])
    {cs : List Char} (hn : ∀ tail, cs ≠ c :: tail) (tail : List Char) : cs ++ rest ≠ c :: tail := by
  intro he
  cases cs with
  | nil =>
    rw [List.nil_append] at he
    exact (h c (by rw [he]; rfl)).2 hc
  | cons d cs => exact hn cs (by rw [(List.cons.inj he).1])

theorem readExponent_append (h : Closes rest) (cs : List Char) :
    readExponent (cs ++ rest) = (readExponent cs).map (followed rest) := by
  have hd := fun c hc => (h c hc).1
  by_cases hp : ∃ tail, cs = '+' :: tail
  · obtain ⟨tail, rfl⟩ := hp
    rw [List.cons_append, readExponent, readExponent, readDigitRun_append hd, Option.map_map,
      Option.map_map]
    rfl
  by_cases hm : ∃ tail, cs = '-' :: tail
  · obtain ⟨tail, rfl⟩ := hm
    rw [List.cons_append, readExponent, readExponent, readDigitRun_append hd, Option.map_map,
      Option.map_map]
    rfl
  · rw [not_exists] at hp hm
    rw [readExponent.eq_3 _ (head_append_ne h (by decide) hp) (head_append_ne h (by decide) hm),
      readExponent.eq_3 _ hp hm, readDigitRun_append hd, Option.map_map, Option.map_map]
    rfl

theorem readScale_append (h : Closes rest) (cs : List Char) :
    readScale (cs ++ rest) = (readScale cs).map (followed rest) := by
  by_cases hl : ∃ tail, cs = 'e' :: tail
  · obtain ⟨tail, rfl⟩ := hl
    rw [List.cons_append, readScale, readScale, readExponent_append h, Option.map_map,
      Option.map_map]
    rfl
  by_cases hu : ∃ tail, cs = 'E' :: tail
  · obtain ⟨tail, rfl⟩ := hu
    rw [List.cons_append, readScale, readScale, readExponent_append h, Option.map_map,
      Option.map_map]
    rfl
  · rw [not_exists] at hl hu
    rw [readScale.eq_3 _ (head_append_ne h (by decide) hl) (head_append_ne h (by decide) hu),
      readScale.eq_3 _ hl hu]
    rfl

/-- What stands behind the first digits of a number. -/
def readBehind (negative : Bool) (digits : List Char) : List Char → Option (Json × List Char)
  | '.' :: cs => (readDigitRun cs).bind fun f => (readScale f.2).map fun s =>
    (((binaryNumber? negative digits f.1 (s.1.getD 0)).map number).getD unreadable, s.2)
  | cs => (readScale cs).map fun s =>
    (((match s.1 with
      | some e => binaryNumber? negative digits [] e
      | none => wholeNumber? negative digits).map number).getD unreadable, s.2)

theorem readMagnitude_eq (negative : Bool) (cs : List Char) :
    readMagnitude negative cs =
      (readIntegerRun cs).bind fun p => readBehind negative p.1 p.2 := by
  unfold readMagnitude
  cases readIntegerRun cs with
  | none => rfl
  | some p =>
    obtain ⟨digits, tail⟩ := p
    simp only [Option.bind_eq_bind, Option.bind_some]
    by_cases hp : ∃ f, tail = '.' :: f
    · obtain ⟨f, rfl⟩ := hp
      rw [readBehind]
      simp only [Option.map_eq_bind]
      rfl
    · rw [not_exists] at hp
      rw [readBehind.eq_2 _ _ _ hp, Option.map_eq_bind]
      split
      · exact absurd rfl (hp _)
      · rfl

theorem readBehind_append (h : Closes rest) (negative : Bool) (digits cs : List Char) :
    readBehind negative digits (cs ++ rest) =
      (readBehind negative digits cs).map (followed rest) := by
  have hd := fun c hc => (h c hc).1
  by_cases hp : ∃ tail, cs = '.' :: tail
  · obtain ⟨tail, rfl⟩ := hp
    rw [List.cons_append, readBehind, readBehind, readDigitRun_append hd]
    cases readDigitRun tail with
    | none => rfl
    | some f =>
      simp only [Option.map_some, Option.bind_some, followed]
      rw [readScale_append h, Option.map_map, Option.map_map]
      rfl
  · rw [not_exists] at hp
    rw [readBehind.eq_2 _ _ _ (head_append_ne h (by decide) hp), readBehind.eq_2 _ _ _ hp,
      readScale_append h, Option.map_map, Option.map_map]
    rfl

theorem readMagnitude_append (h : Closes rest) (negative : Bool) (cs : List Char) :
    readMagnitude negative (cs ++ rest) = (readMagnitude negative cs).map (followed rest) := by
  rw [readMagnitude_eq, readMagnitude_eq, readIntegerRun_append fun c hc => (h c hc).1]
  cases readIntegerRun cs with
  | none => rfl
  | some p => exact readBehind_append h negative p.1 p.2

/-- In front of a text that closes it, a number is read as if the text were not there. -/
theorem readNumber_append (h : Closes rest) (cs : List Char) :
    readNumber (cs ++ rest) = (readNumber cs).map (followed rest) := by
  by_cases hm : ∃ tail, cs = '-' :: tail
  · obtain ⟨tail, rfl⟩ := hm
    exact readMagnitude_append h true tail
  · rw [not_exists] at hm
    rw [readNumber.eq_2 _ (head_append_ne h (by decide) hm), readNumber.eq_2 _ hm]
    exact readMagnitude_append h false cs

end ChainIndexer.Json
