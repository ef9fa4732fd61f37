import ChainIndexer.Amount.Basic
import ChainIndexer.Proofs.Text.Integer

/-
  Integers with a mark in them.

  The value of an amount is read as an integer into which a point or a comma may be put, and its
  exponent is the number of places behind that mark (`readNumeric_of_marked`). Nothing else is read,
  and what is not read is refused for what it is, unless it has more places than an exponent can
  count (`marked_or_fault`).
-/

namespace ChainIndexer.Amount

open Text

/-! ## Marks -/

/-- What divides the fraction from the digits before it. -/
inductive Mark where
  | point
  | comma
  deriving DecidableEq

/-- How a mark is written. -/
def Mark.char : Mark → Char
  | point => '.'
  | comma => ','

/-- An integer, and a text that is the integer with at most one mark put into it, which has so many
places behind it. -/
inductive Marked : List Char → List Char → Nat → Prop
  | absent (cs : List Char) : Marked cs cs 0
  | put (m : Mark) (whole fraction : List Char) :
    Marked (whole ++ fraction) (whole ++ m.char :: fraction) fraction.length

theorem pointed_append (cs ds : List Char) : pointed (cs ++ ds) = pointed cs ++ pointed ds :=
  List.map_append

theorem pointed_mark (m : Mark) (cs : List Char) : pointed (m.char :: cs) = '.' :: pointed cs := by
  cases m with
  | point => rfl
  | comma => rfl

theorem pointed_eq_self {cs : List Char} (h : ',' ∉ cs) : pointed cs = cs := by
  refine (List.map_congr_left fun c hc => if_neg ?_).trans (List.map_id cs)
  rintro rfl
  exact h hc

/-- Where no point results there was no comma. -/
theorem pointed_eq_self_of_notMem {cs : List Char} (h : '.' ∉ pointed cs) : pointed cs = cs := by
  apply pointed_eq_self
  intro hc
  exact h (List.mem_map.2 ⟨',', hc, rfl⟩)

/-- Where one point results there was one mark. -/
theorem exists_mark {text whole fraction : List Char} (hw : '.' ∉ whole) (hf : '.' ∉ fraction)
    (h : pointed text = whole ++ '.' :: fraction) :
    ∃ m : Mark, text = whole ++ m.char :: fraction := by
  obtain ⟨w, behind, rfl, rfl, hb⟩ := List.map_eq_append_iff.1 h
  obtain ⟨c, f, rfl, hc, rfl⟩ := List.map_eq_cons_iff.1 hb
  have hw := pointed_eq_self_of_notMem hw
  have hf := pointed_eq_self_of_notMem hf
  unfold pointed at hw hf
  rw [hw, hf]
  by_cases he : c = ','
  · exact ⟨.comma, by rw [he]; rfl⟩
  · rw [if_neg he] at hc
    exact ⟨.point, by rw [hc]; rfl⟩

/-! ## Reading an integer with a mark in it -/

/-- The characters of an integer. -/
theorem mem_of_readInteger {cs : List Char} {n : Int} (h : readInteger cs = .ok n) {c : Char}
    (hc : c ∈ cs) : c = '-' ∨ c = '+' ∨ c.isDigit = true ∨ c = '_' := by
  obtain ⟨s, body, rfl, hg, -⟩ := readInteger_eq_ok_iff.1 h
  rcases List.mem_append.1 hc with hc | hc
  · cases s with
    | unsigned => exact absurd hc List.not_mem_nil
    | minus => exact .inl (List.mem_singleton.1 hc)
    | plus => exact .inr (.inl (List.mem_singleton.1 hc))
  · exact .inr (.inr (hg.each c hc))

theorem utf8Size_of_readInteger {cs : List Char} {n : Int} (h : readInteger cs = .ok n) {c : Char}
    (hc : c ∈ cs) : c.utf8Size = 1 := by
  rcases mem_of_readInteger h hc with rfl | rfl | hd | rfl
  · rfl
  · rfl
  · rw [Char.utf8Size_eq_one_iff]
    exact UInt32.le_iff_toNat_le.2 (Nat.le_trans (Char.isDigit_iff_toNat.1 hd).2 (by decide))
  · rfl

theorem point_notMem_of_readInteger {cs : List Char} {n : Int} (h : readInteger cs = .ok n) :
    '.' ∉ cs := by
  intro hc
  rcases mem_of_readInteger h hc with hd | hd | hd | hd <;> exact absurd hd (by decide)

theorem comma_notMem_of_readInteger {cs : List Char} {n : Int} (h : readInteger cs = .ok n) :
    ',' ∉ cs := by
  intro hc
  rcases mem_of_readInteger h hc with hd | hd | hd | hd <;> exact absurd hd (by decide)

theorem byteLength_eq_length {cs : List Char} (h : ∀ c ∈ cs, c.utf8Size = 1) :
    byteLength cs = cs.length := by
  have hf : ∀ count, cs.foldl (fun count c => count + c.utf8Size) count = count + cs.length := by
    induction cs with
    | nil => exact fun _ => rfl
    | cons c cs ih =>
      intro count
      rw [List.foldl_cons, ih (fun d hd => h d (List.mem_cons_of_mem c hd)),
        h c List.mem_cons_self, List.length_cons]
      omega
  exact (hf 0).trans (Nat.zero_add _)

theorem readScaled_of_readInteger {digits : List Char} {n : Int} (h : readInteger digits = .ok n)
    (value : List Char) (exp : Nat) :
    readScaled value digits exp =
      if exp ≤ maxSigned32 then .ok (n, (exp : Int)) else .error .fractionTooLong := by
  unfold readScaled
  rw [h]

/-- An integer with a mark in it is read, unless its fraction has more places than fit. -/
theorem readNumeric_of_marked {cs integer : List Char} {places : Nat} {n : Int}
    (hm : Marked integer (trim cs) places) (h : readInteger integer = .ok n) :
    readNumeric cs =
      if places ≤ maxSigned32 then .ok (n, (places : Int)) else .error .fractionTooLong := by
  have hp := point_notMem_of_readInteger h
  have hc := comma_notMem_of_readInteger h
  unfold readNumeric
  generalize trim cs = text at hm
  cases hm with
  | absent =>
    have hne : integer ≠ [] := by
      rintro rfl
      exact absurd h nofun
    dsimp only
    rw [pointed_eq_self hc, if_neg hne, List.splitOn_eq_singleton hp]
    exact readScaled_of_readInteger h integer 0
  | put m whole fraction =>
    -- Neither side holds a mark of its own, so the text is divided where the mark was put.
    rw [List.mem_append, not_or] at hp hc
    have hs : (whole ++ '.' :: fraction).splitOn '.' = [whole, fraction] := by
      rw [List.splitOn_append_cons_self_of_not_mem hp.1, List.splitOn_eq_singleton hp.2]
    have hb : byteLength fraction = fraction.length := byteLength_eq_length fun c hc =>
      utf8Size_of_readInteger h (List.mem_append_right whole hc)
    dsimp only
    rw [pointed_append, pointed_mark, pointed_eq_self hc.1, pointed_eq_self hc.2,
      if_neg (by simp), hs]
    dsimp only
    rw [hb]
    exact readScaled_of_readInteger h _ _

theorem readScaled_error {digits : List Char} {cause : NumeralFault}
    (h : readInteger digits = .error cause) (value : List Char) (exp : Nat) :
    readScaled value digits exp = .error (.notInteger (String.ofList value) cause) := by
  unfold readScaled
  rw [h]

/-- A text is an integer with a mark in it, or it is refused for what it is and not for a fraction
that is too long. -/
theorem marked_or_fault (cs : List Char) :
    (∃ integer places n, Marked integer (trim cs) places ∧ readInteger integer = .ok n) ∨
      ∃ fault, readNumeric cs = .error fault ∧ fault ≠ .fractionTooLong := by
  unfold readNumeric
  generalize trim cs = text
  dsimp only
  split
  · exact .inr ⟨_, rfl, nofun⟩
  have hs : ['.'].intercalate ((pointed text).splitOn '.') = pointed text :=
    List.intercalate_splitOn '.'
  split
  · rename_i whole he
    rw [he] at hs
    have hp : pointed text = whole := by simpa using hs.symm
    cases hr : readInteger whole with
    | error cause => exact .inr ⟨_, readScaled_error hr _ _, nofun⟩
    | ok n =>
      have ht := pointed_eq_self_of_notMem (hp ▸ point_notMem_of_readInteger hr)
      rw [← hp, ht] at hr
      exact .inl ⟨text, 0, n, .absent text, hr⟩
  · rename_i whole fraction he
    rw [he] at hs
    have hp : pointed text = whole ++ '.' :: fraction := by simpa using hs.symm
    cases hr : readInteger (whole ++ fraction) with
    | error cause => exact .inr ⟨_, readScaled_error hr _ _, nofun⟩
    | ok n =>
      -- No point is left on either side, so commas of the text were not turned into any there.
      have hd := point_notMem_of_readInteger hr
      rw [List.mem_append, not_or] at hd
      obtain ⟨m, rfl⟩ := exists_mark hd.1 hd.2 hp
      exact .inl ⟨_, _, n, .put m whole fraction, hr⟩
  · exact .inr ⟨_, rfl, nofun⟩

end ChainIndexer.Amount
