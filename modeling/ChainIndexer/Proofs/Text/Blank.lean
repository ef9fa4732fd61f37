import ChainIndexer.Text.Blank

/-
  Blanks around a text.

  A text that has no blank at either end is what is left when blanks around it are trimmed
  (`trim_surrounded`). Digits and letters are no blanks.
-/

namespace ChainIndexer.Text

/-! ## What is no blank -/

theorem toNat_of_isAlpha {c : Char} (h : c.isAlpha = true) :
    65 ≤ c.toNat ∧ c.toNat ≤ 90 ∨ 97 ≤ c.toNat ∧ c.toNat ≤ 122 := by
  unfold Char.isAlpha Char.isUpper Char.isLower at h
  simp only [Bool.or_eq_true, Bool.and_eq_true, decide_eq_true_eq, UInt32.le_iff_toNat_le,
    ge_iff_le] at h
  exact h

theorem isBlank_of_isDigit {c : Char} (h : c.isDigit = true) : isBlank c = false := by
  have hd := Char.isDigit_iff_toNat.1 h
  unfold isBlank blankCodes
  rw [Bool.eq_false_iff, ne_eq, List.contains_iff_mem]
  have h1 : 48 ≤ c.toNat := hd.1
  have h2 : c.toNat ≤ 57 := hd.2
  simp only [List.mem_cons, List.not_mem_nil, or_false]
  omega

theorem isBlank_of_isAlpha {c : Char} (h : c.isAlpha = true) : isBlank c = false := by
  have ha := toNat_of_isAlpha h
  unfold isBlank blankCodes
  rw [Bool.eq_false_iff, ne_eq, List.contains_iff_mem]
  simp only [List.mem_cons, List.not_mem_nil, or_false]
  omega

/-! ## Trimming -/

theorem trimStart_append {before : List Char} (h : ∀ c ∈ before, isBlank c = true)
    (cs : List Char) : trimStart (before ++ cs) = trimStart cs :=
  List.dropWhile_append_of_pos h

theorem trimEnd_append {after : List Char} (h : ∀ c ∈ after, isBlank c = true)
    (cs : List Char) : trimEnd (cs ++ after) = trimEnd cs := by
  unfold trimEnd
  rw [List.reverse_append, trimStart_append fun c hc => h c (List.mem_reverse.1 hc)]

theorem trim_append {after : List Char} (h : ∀ c ∈ after, isBlank c = true) (cs : List Char) :
    trim (cs ++ after) = trim cs := by
  have ha : after.dropWhile isBlank = [] := by
    rw [← List.append_nil after, List.dropWhile_append_of_pos h]
    rfl
  unfold trim trimStart
  rw [List.dropWhile_append, ha]
  split
  · rename_i he
    rw [List.isEmpty_iff.1 he]
  · exact trimEnd_append h _

/-- Blanks around a text that has none at its ends are trimmed, and nothing else is. -/
theorem trim_surrounded {before cs after : List Char} (nonempty : cs ≠ [])
    (first : ∀ c ∈ cs.head?, isBlank c = false) (last : ∀ c ∈ cs.getLast?, isBlank c = false)
    (front : ∀ c ∈ before, isBlank c = true) (back : ∀ c ∈ after, isBlank c = true) :
    trim (before ++ cs ++ after) = cs := by
  have hs : trimStart (cs ++ after) = cs ++ after := by
    apply trimStart_eq_self
    rw [List.head?_append, Option.or_of_isSome (by simpa using nonempty)]
    exact first
  unfold trim
  rw [List.append_assoc, trimStart_append front, hs, trimEnd_append back, trimEnd_eq_self last]

theorem mem_trimStart_iff {cs : List Char} {c : Char} (h : isBlank c = false) :
    c ∈ trimStart cs ↔ c ∈ cs := by
  refine ⟨fun hc => List.dropWhile_subset _ hc, fun hc => ?_⟩
  have hs : cs.takeWhile isBlank ++ cs.dropWhile isBlank = cs := List.takeWhile_append_dropWhile
  rw [← hs] at hc
  refine (List.mem_append.1 hc).resolve_left fun hb => ?_
  have ht := List.all_eq_true.1 (List.all_takeWhile (p := isBlank)) c hb
  exact Bool.noConfusion (h.symm.trans ht)

/-- Nothing but blanks is trimmed. -/
theorem mem_trim_iff {cs : List Char} {c : Char} (h : isBlank c = false) :
    c ∈ trim cs ↔ c ∈ cs := by
  unfold trim trimEnd
  rw [List.mem_reverse, mem_trimStart_iff h, List.mem_reverse, mem_trimStart_iff h]

end ChainIndexer.Text
