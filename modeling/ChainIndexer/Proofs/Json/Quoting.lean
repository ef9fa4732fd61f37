import ChainIndexer.Json.Reader

/-
  Texts in quotes, written and read again.

  What stands for a character inside quotes is read as the number of that character, whether it is
  escaped or not (`readUnits_escapeChar`). A character is never half of a pair, so the numbers of
  its characters are joined to the text itself (`joinHalves?_map_toNat`). Any text is read as it
  was written (`readQuoted_escaped`), and none of the characters that are written breaks a line
  (`le_of_mem_quote`).
-/

namespace ChainIndexer.Json

/-! ## Characters -/

/-- What may stand for a character inside quotes. -/
inductive Escaped (c : Char) : List Char → Prop
  | letter {d : Char} (other : d ≠ 'u') (stands : shortEscape? d = some c.toNat)
      (visible : 32 ≤ d.toNat) : Escaped c ['\\', d]
  | digits (control : c.toNat < 32) : Escaped c ('\\' :: 'u' :: escapeDigits c.toNat)
  | itself (visible : 32 ≤ c.toNat) (quote : c ≠ '"') (escape : c ≠ '\\') : Escaped c [c]

theorem escaped_escapeChar (c : Char) : Escaped c (escapeChar c) := by
  unfold escapeChar
  split
  · subst_vars
    exact .letter (by decide) rfl (by decide)
  split
  · subst_vars
    exact .letter (by decide) rfl (by decide)
  split
  · subst_vars
    exact .letter (by decide) rfl (by decide)
  split
  · subst_vars
    exact .letter (by decide) rfl (by decide)
  split
  · subst_vars
    exact .letter (by decide) rfl (by decide)
  split
  · rename_i hc
    exact .letter (by decide) (hc ▸ rfl) (by decide)
  split
  · rename_i hc
    exact .letter (by decide) (hc ▸ rfl) (by decide)
  split
  · rename_i hc
    exact .digits hc
  · rename_i hq he _ _ _ _ _ hc
    exact .itself (Nat.le_of_not_lt hc) hq he

theorem hexNumber?_escapeDigits : ∀ n < 32, ∃ a b c d,
    escapeDigits n = [a, b, c, d] ∧ hexNumber? a b c d = some n := by
  intro n hn
  refine ⟨_, _, _, _, rfl, ?_⟩
  revert n
  decide

/-- A number in front of those that are read next. -/
theorem bind_cons (n : Nat) (o : Option (List Nat × List Char)) :
    (o.bind fun p => some (n :: p.1, p.2)) = o.map fun p => (n :: p.1, p.2) :=
  (Option.map_eq_bind).symm

/-- A character is read as its number, in whichever form it was written. -/
theorem readUnits_of_escaped {c : Char} {cs : List Char} (h : Escaped c cs) (rest : List Char) :
    readUnits (cs ++ rest) = (readUnits rest).map fun p => (c.toNat :: p.1, p.2) := by
  cases h with
  | letter other stands _ =>
    rw [List.cons_append, List.singleton_append,
      readUnits.eq_4 _ _ (fun _ _ _ _ _ hd => absurd hd other), stands]
    exact bind_cons c.toNat (readUnits rest)
  | digits control =>
    obtain ⟨a, b, x, d, he, hn⟩ := hexNumber?_escapeDigits c.toNat control
    rw [he]
    simp only [List.cons_append, List.nil_append]
    rw [readUnits.eq_3, hn]
    exact bind_cons c.toNat (readUnits rest)
  | itself visible quote escape =>
    rw [List.singleton_append, readUnits.eq_5 c rest quote (fun _ _ _ _ _ hc => absurd hc escape)
      (fun _ _ hc => absurd hc escape), if_neg (Nat.not_lt.2 visible)]
    exact bind_cons c.toNat (readUnits rest)

theorem readUnits_escaped (cs rest : List Char) :
    readUnits (cs.flatMap escapeChar ++ '"' :: rest) = some (cs.map Char.toNat, rest) := by
  induction cs with
  | nil => rfl
  | cons c cs ih =>
    rw [List.flatMap_cons, List.append_assoc, readUnits_of_escaped (escaped_escapeChar c), ih]
    rfl

/-! ## Texts -/

theorem not_half (c : Char) : isHighHalf c.toNat = false ∧ isLowHalf c.toNat = false := by
  have hv : c.toNat < 0xD800 ∨ (0xDFFF < c.toNat ∧ c.toNat < 0x110000) := c.valid
  unfold isHighHalf isLowHalf
  constructor
  · rw [Bool.and_eq_false_iff, decide_eq_false_iff_not, decide_eq_false_iff_not]
    omega
  · rw [Bool.and_eq_false_iff, decide_eq_false_iff_not, decide_eq_false_iff_not]
    omega

/-- The numbers of characters are joined to the characters themselves. -/
theorem joinHalves?_map_toNat (cs : List Char) : joinHalves? (cs.map Char.toNat) = some cs := by
  induction cs with
  | nil => rfl
  | cons c cs ih =>
    obtain ⟨hh, hl⟩ := not_half c
    cases cs with
    | nil => simp [joinHalves?, hh, hl]
    | cons d cs =>
      simp only [List.map_cons] at ih ⊢
      simp [joinHalves?, hh, hl, ih]

/-- A text is read as it was written. -/
theorem readQuoted_escaped (s : String) (rest : List Char) :
    readQuoted (s.toList.flatMap escapeChar ++ '"' :: rest) = some (some s, rest) := by
  unfold readQuoted
  rw [readUnits_escaped]
  simp [joinHalves?_map_toNat]

/-! ## Lines -/

/-- Some fixed characters are looked through, and not all characters that there are. -/
theorem le_of_all {cs : List Char} (h : (cs.all fun c => decide (32 ≤ c.toNat)) = true) :
    ∀ c ∈ cs, 32 ≤ c.toNat :=
  fun c hc => of_decide_eq_true (List.all_eq_true.1 h c hc)

theorem le_of_mem_escapeDigits : ∀ n < 32, ∀ d ∈ escapeDigits n, 32 ≤ d.toNat := by
  have ha : ∀ n < 32, ((escapeDigits n).all fun c => decide (32 ≤ c.toNat)) = true := by decide
  exact fun n hn => le_of_all (ha n hn)

/-- Nothing that stands for a character is a control character. -/
theorem le_of_mem_escaped {c d : Char} {cs : List Char} (h : Escaped c cs) (hd : d ∈ cs) :
    32 ≤ d.toNat := by
  cases h with
  | letter _ _ visible =>
    rcases List.mem_cons.1 hd with rfl | hd
    · decide
    · rw [List.mem_singleton.1 hd]
      exact visible
  | digits control =>
    rcases List.mem_cons.1 hd with rfl | hd
    · decide
    rcases List.mem_cons.1 hd with rfl | hd
    · decide
    · exact le_of_mem_escapeDigits c.toNat control d hd
  | itself visible _ _ =>
    rw [List.mem_singleton.1 hd]
    exact visible

theorem le_of_mem_quote {s : String} {d : Char} (h : d ∈ quote s) : 32 ≤ d.toNat := by
  unfold quote at h
  rcases List.mem_cons.1 h with rfl | h
  · decide
  rcases List.mem_append.1 h with h | h
  · obtain ⟨c, _, hd⟩ := List.mem_flatMap.1 h
    exact le_of_mem_escaped (escaped_escapeChar c) hd
  · rw [List.mem_singleton.1 h]
    decide

end ChainIndexer.Json
