import Mathlib.Data.List.Forall2
import ChainIndexer.Proofs.Text.Numeral
import ChainIndexer.Proofs.Amount.Currency

/-
  Coin lists, as the chain prints them.

  A printed coin is a natural number and a denomination behind it. Coins joined by commas, with any
  blanks around the commas, are read as these coins in their order, each from its own text
  (`readCoins_joined`): no denomination holds a comma, and its letter tells the list from a number
  with a decimal comma.
-/

namespace ChainIndexer.Amount

open Text Outcome

/-! ## Coins -/

/-- A coin as the chain prints it: how many, and of what. -/
structure PrintedCoin where
  count : Nat
  denom : String
  letter : ∃ c ∈ denom.toList.head?, c.isAlpha = true
  comma : ',' ∉ denom.toList
  blank : ∀ c ∈ denom.toList.getLast?, isBlank c = false

namespace PrintedCoin

/-- How a coin is printed. -/
def text (c : PrintedCoin) : String :=
  c.count.repr ++ c.denom

/-- What a coin is read as. -/
def amount (c : PrintedCoin) : Amount :=
  ⟨c.text, c.count, 0, c.denom⟩

/-- The number of a coin, as a numeral. -/
def numeral (c : PrintedCoin) : Decimal where
  sign := .unsigned
  whole := Nat.toDigits 10 c.count
  tail := none
  digit d hd := isDigit_of_mem_toDigits (by simpa [fractionOf] using hd)
  nonempty := by simp [fractionOf, Nat.toDigits_ne_nil]

theorem toList_text (c : PrintedCoin) :
    c.text.toList = Nat.toDigits 10 c.count ++ c.denom.toList := by
  unfold text
  rw [String.toList_append, Nat.toList_repr]

theorem numeric_numeral (c : PrintedCoin) : c.numeral.numeric = c.count := by
  unfold numeral Decimal.numeric Decimal.fraction fractionOf
  rw [Sign.factor, one_mul, List.append_nil, Nat.ofDigitChars_ten_toDigits]

theorem ofText_text (c : PrintedCoin) : ofText c.text = .ok c.amount := by
  have hw : c.text.toList = [] ++ c.numeral.chars ++ [] ++ c.denom.toList := by
    rw [toList_text]
    simp [Decimal.chars, numeral, Sign.chars, Decimal.tailChars]
  have hl : ∀ d ∈ c.denom.toList.head?, d.isAlpha = true := by
    obtain ⟨d, hd, ha⟩ := c.letter
    intro e he
    rwa [Option.mem_unique he hd]
  have hs : Sign.unsigned ≠ .plus := by decide
  rw [ofText_numeral hw hs (List.forall_mem_nil _) (List.forall_mem_nil _) hl (Nat.zero_le _),
    numeric_numeral]
  rfl

theorem denom_ne_nil (c : PrintedCoin) : c.denom.toList ≠ [] := by
  obtain ⟨d, hd, _⟩ := c.letter
  exact List.ne_nil_of_mem (List.mem_of_mem_head? hd)

theorem text_ne_nil (c : PrintedCoin) : c.text.toList ≠ [] := by
  rw [toList_text]
  simp [c.denom_ne_nil]

theorem comma_notMem_text (c : PrintedCoin) : ',' ∉ c.text.toList := by
  rw [toList_text, List.mem_append, not_or]
  exact ⟨fun h => absurd (isDigit_of_mem_toDigits h) (by decide), c.comma⟩

/-- A printed coin holds a letter. -/
theorem exists_isAlpha (c : PrintedCoin) : ∃ d ∈ c.text.toList, d.isAlpha = true := by
  obtain ⟨d, hd, ha⟩ := c.letter
  rw [toList_text]
  exact ⟨d, List.mem_append_right _ (List.mem_of_mem_head? hd), ha⟩

/-- Blanks around a printed coin are trimmed. -/
theorem trim_text (c : PrintedCoin) {before after : List Char}
    (front : ∀ d ∈ before, isBlank d = true) (back : ∀ d ∈ after, isBlank d = true) :
    trim (before ++ c.text.toList ++ after) = c.text.toList := by
  refine trim_surrounded c.text_ne_nil ?_ ?_ front back
  · rw [toList_text, List.head?_append, Option.or_of_isSome (by simp [Nat.toDigits_ne_nil])]
    exact fun d hd => isBlank_of_isDigit (isDigit_of_mem_toDigits (List.mem_of_mem_head? hd))
  · rw [toList_text, List.getLast?_append, Option.or_of_isSome (by simp [c.denom_ne_nil])]
    exact c.blank

end PrintedCoin

/-! ## Lists -/

theorem trim_subset (cs : List Char) : trim cs ⊆ cs := by
  intro c hc
  unfold trim trimEnd trimStart at hc
  have h := List.dropWhile_subset _ (List.mem_reverse.1 hc)
  exact List.dropWhile_subset _ (List.mem_reverse.1 h)

/-- What is joined is part of the whole. -/
theorem subset_intercalate {piece : List Char} {pieces : List (List Char)} (h : piece ∈ pieces)
    (sep : List Char) : piece ⊆ sep.intercalate pieces := by
  induction pieces with
  | nil => cases h
  | cons p ps ih =>
    cases ps with
    | nil =>
      rw [List.mem_singleton.1 h, List.intercalate_singleton]
      exact List.Subset.refl _
    | cons q qs =>
      rw [List.intercalate_cons_cons]
      intro c hc
      rcases List.mem_cons.1 h with rfl | h
      · exact List.mem_append_left _ (List.mem_append_left _ hc)
      · exact List.mem_append_right _ (ih h hc)

/-- A text whose places between the commas are printed coins is read as these coins. -/
theorem readCoins_of_places {raw : String} {coins : List PrintedCoin} (nonempty : coins ≠ [])
    (h : (raw.toList.splitOn ',').map trim = coins.map fun c => c.text.toList) :
    readCoins raw = .ok (coins.map (·.amount)) := by
  -- The letter of the first coin makes the text a list.
  have hletter : raw.toList.any Char.isAlpha = true := by
    obtain ⟨c, rest, rfl⟩ := List.exists_cons_of_ne_nil nonempty
    obtain ⟨d, hd, ha⟩ := c.exists_isAlpha
    obtain ⟨place, hp, he⟩ : ∃ place ∈ raw.toList.splitOn ',', trim place = c.text.toList :=
      List.mem_map.1 (h ▸ List.mem_cons_self)
    rw [← he] at hd
    rw [List.any_eq_true]
    refine ⟨d, ?_, ha⟩
    have hw : [','].intercalate (raw.toList.splitOn ',') = raw.toList :=
      List.intercalate_splitOn ','
    exact hw ▸ subset_intercalate hp [','] (trim_subset place hd)
  have hf : (coins.map fun c => c.text.toList).filter (· ≠ []) =
      coins.map fun c => c.text.toList := by
    apply List.filter_eq_self.2
    intro place hp
    obtain ⟨c, _, rfl⟩ := List.mem_map.1 hp
    exact decide_eq_true c.text_ne_nil
  unfold readCoins
  rw [if_pos hletter, h, hf, mapM_eq_ok, List.forall₂_map_left_iff, List.forall₂_map_right_iff,
    List.forall₂_same]
  intro c _
  rw [String.ofList_toList]
  exact c.ofText_text

/-- A coin in a list, with blanks around it. -/
structure Spaced where
  before : List Char
  coin : PrintedCoin
  after : List Char
  blank : ∀ c ∈ before ++ after, isBlank c = true

/-- How a place of a list is written. -/
def Spaced.chars (p : Spaced) : List Char :=
  p.before ++ p.coin.text.toList ++ p.after

theorem Spaced.comma_notMem (p : Spaced) : ',' ∉ p.chars := by
  have hb : ∀ {c}, c ∈ p.before ++ p.after → c ≠ ',' := by
    rintro c hc rfl
    exact absurd (p.blank ',' hc) (by decide)
  unfold Spaced.chars
  simp only [List.mem_append, not_or]
  exact ⟨⟨fun h => hb (List.mem_append_left _ h) rfl, p.coin.comma_notMem_text⟩,
    fun h => hb (List.mem_append_right _ h) rfl⟩

/-- Some coins, joined by commas with blanks around them. -/
def joined (places : List Spaced) : String :=
  String.ofList ([','].intercalate (places.map Spaced.chars))

theorem toList_joined (places : List Spaced) :
    (joined places).toList = [','].intercalate (places.map Spaced.chars) :=
  String.toList_ofList

theorem places_joined (places : List Spaced) (nonempty : places ≠ []) :
    ((joined places).toList.splitOn ',').map trim =
      (places.map (·.coin)).map fun c => c.text.toList := by
  rw [toList_joined, List.splitOn_intercalate, List.map_map, List.map_map]
  · apply List.map_congr_left
    intro p _
    obtain ⟨front, back⟩ := List.forall_mem_append.1 p.blank
    exact p.coin.trim_text front back
  · intro place hp
    obtain ⟨p, _, rfl⟩ := List.mem_map.1 hp
    exact p.comma_notMem
  · simpa using nonempty

/-! ## Printed lists -/

/-- A coin list as the chain prints it: the coins with commas between them, and nothing for none. -/
def listText (coins : List PrintedCoin) : String :=
  ",".intercalate (coins.map (·.text))

/-- A coin with no blanks around it. -/
def Spaced.bare (c : PrintedCoin) : Spaced :=
  ⟨[], c, [], List.forall_mem_nil _⟩

theorem Spaced.chars_bare (c : PrintedCoin) : (bare c).chars = c.text.toList := by
  unfold bare chars
  rw [List.nil_append, List.append_nil]

theorem listText_eq_joined (coins : List PrintedCoin) :
    listText coins = joined (coins.map Spaced.bare) := by
  unfold listText
  rw [← String.toList_inj, toList_joined, String.toList_intercalate, List.map_map, List.map_map]
  exact congrArg [','].intercalate (List.map_congr_left fun c _ => (Spaced.chars_bare c).symm)

theorem readCoins_listText {coins : List PrintedCoin} (nonempty : coins ≠ []) :
    readCoins (listText coins) = .ok (coins.map (·.amount)) := by
  have h := places_joined (coins.map Spaced.bare) (by simpa using nonempty)
  rw [← listText_eq_joined, List.map_map, List.map_map] at h
  exact readCoins_of_places nonempty h

/-- The list of no coins is no amount. -/
theorem readCoins_empty : readCoins "" = .error .empty :=
  rfl

theorem listText_eq_empty_iff {coins : List PrintedCoin} : listText coins = "" ↔ coins = [] := by
  constructor
  · intro h
    by_contra hc
    have hr := readCoins_listText hc
    rw [h, readCoins_empty] at hr
    cases hr
  · rintro rfl
    rfl

/-- Coins joined by commas, with any blanks around the commas, are read as these coins in their
order, each with its number, no places, its denomination and its own text. -/
theorem readCoins_joined (places : List Spaced) (nonempty : places ≠ []) :
    readCoins (joined places) = .ok (places.map fun p =>
      ⟨p.coin.text, p.coin.count, 0, p.coin.denom⟩) := by
  rw [readCoins_of_places (by simpa using nonempty) (places_joined places nonempty), List.map_map]
  rfl

/-- A coin of a denomination in the form of a channel. -/
def channelCoin : PrintedCoin where
  count := 10
  denom := "ibc/27A6"
  letter := ⟨'i', rfl, rfl⟩
  comma := by decide
  blank := by
    rintro c ⟨⟩
    rfl

/-- No coin of a denomination that holds whatever a number may hold. -/
def oddCoin : PrintedCoin where
  count := 0
  denom := "x.5-7 9"
  letter := ⟨'x', rfl, rfl⟩
  comma := by decide
  blank := by
    rintro c ⟨⟩
    rfl

/-- Two coins with blanks at the comma between them. -/
def twoCoins : List Spaced :=
  [⟨[], channelCoin, [' '], List.all_eq_true.1 rfl⟩, ⟨['\t'], oddCoin, [], List.all_eq_true.1 rfl⟩]

theorem readCoins_joined_two : twoCoins ≠ [] ∧ joined twoCoins = "10ibc/27A6 ,\t0x.5-7 9" ∧
    readCoins "10ibc/27A6 ,\t0x.5-7 9" =
      .ok [⟨"10ibc/27A6", 10, 0, "ibc/27A6"⟩, ⟨"0x.5-7 9", 0, 0, "x.5-7 9"⟩] := by
  have hj : joined twoCoins = "10ibc/27A6 ,\t0x.5-7 9" := by rfl
  refine ⟨nofun, hj, ?_⟩
  rw [← hj, readCoins_joined twoCoins nofun]
  rfl

end ChainIndexer.Amount
