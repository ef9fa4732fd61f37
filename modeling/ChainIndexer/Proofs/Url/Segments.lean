import Mathlib.Data.List.Flatten
import Mathlib.Data.List.TakeWhile
import ChainIndexer.Proofs.Text.Blank
import ChainIndexer.Proofs.Text.Pieces
import ChainIndexer.Proofs.Url.Encoding
import ChainIndexer.Url.Parser

/-
  What stays one segment of a path.

  A text that is read behind directories is a segment, `IsSegment`, if it divides no path, ends
  none, loses no character when it is read, and names no place. A segment is added to the path of a
  base behind the directories, and nothing else is (`joinPath_segment`). Of any other text a part at
  most is at the end of the path, which is not the whole text (`exists_last`, `whole_of_part`), and
  what stands in front of it may be anything.
-/

namespace ChainIndexer.Url

open Text

variable {special : Bool} {cs front piece segment last : List Char} {c : Char}
  {done names : List String} {dirs segments : List (List Char)} {base : Url}

/-! ## Places -/

/-- The texts of a point. -/
def pointTexts : List (List Char) :=
  [['.'], ['%', '2', 'e'], ['%', '2', 'E']]

/-- A segment that is a place: the one where it stands, or the one above. -/
def IsPlace (segment : List Char) : Prop :=
  segment ∈ pointTexts ∨ ∃ a ∈ pointTexts, ∃ b ∈ pointTexts, segment = a ++ b

instance (segment : List Char) : Decidable (IsPlace segment) :=
  inferInstanceAs (Decidable (_ ∨ _))

theorem plainDots_eq_nil_iff : plainDots cs = [] ↔ cs = [] := by
  unfold plainDots
  split <;> simp

/-- A text is read as a point and more exactly if it begins with a text of a point. -/
theorem plainDots_eq_cons_iff {rest : List Char} : plainDots cs = '.' :: rest ↔
    ∃ a ∈ pointTexts, ∃ after, cs = a ++ after ∧ plainDots after = rest := by
  constructor
  · intro h
    unfold plainDots at h
    split at h
    · cases h
    · rename_i after
      exact ⟨['%', '2', 'e'], by decide, after, rfl, (List.cons.inj h).2⟩
    · rename_i after
      exact ⟨['%', '2', 'E'], by decide, after, rfl, (List.cons.inj h).2⟩
    · rename_i c after _ _
      obtain ⟨rfl, ht⟩ := List.cons.inj h
      exact ⟨['.'], by decide, after, rfl, ht⟩
  · rintro ⟨a, ha, after, rfl, rfl⟩
    simp only [pointTexts, List.mem_cons, List.not_mem_nil, or_false] at ha
    rcases ha with rfl | rfl | rfl <;> rfl

theorem isSingleDot_iff : isSingleDot segment = true ↔ segment ∈ pointTexts := by
  rw [isSingleDot, beq_iff_eq, plainDots_eq_cons_iff]
  constructor
  · rintro ⟨a, ha, after, rfl, hn⟩
    rw [plainDots_eq_nil_iff.1 hn, List.append_nil]
    exact ha
  · exact fun h => ⟨segment, h, [], (List.append_nil segment).symm, rfl⟩

theorem isDoubleDot_iff :
    isDoubleDot segment = true ↔ ∃ a ∈ pointTexts, ∃ b ∈ pointTexts, segment = a ++ b := by
  rw [isDoubleDot, beq_iff_eq, plainDots_eq_cons_iff]
  constructor
  · rintro ⟨a, ha, after, rfl, hb⟩
    exact ⟨a, ha, after, isSingleDot_iff.1 (beq_iff_eq.2 hb), rfl⟩
  · rintro ⟨a, ha, b, hb, rfl⟩
    exact ⟨a, ha, b, rfl, beq_iff_eq.1 (isSingleDot_iff.2 hb)⟩

theorem not_isPlace_iff :
    ¬IsPlace segment ↔ isDoubleDot segment = false ∧ isSingleDot segment = false := by
  rw [IsPlace, ← isSingleDot_iff, ← isDoubleDot_iff, not_or, Bool.not_eq_true, Bool.not_eq_true,
    and_comm]

/-! ## Segments -/

/-- The characters that divide a path, end one, or are dropped wherever they stand. -/
def breaks : List Char :=
  ['/', '?', '#', '\t', '\n', '\r']

/-- What stands in a path as one segment: none of its characters breaks the path, and neither does a
backslash where it is a slash; the last one is no blank or control character, which are dropped at
the end; and it is no place. -/
structure IsSegment (special : Bool) (cs : List Char) : Prop where
  unbroken : ∀ c ∈ cs, c ∉ breaks
  backslash : special = true → '\\' ∉ cs
  last : ∀ c ∈ cs.getLast?, 0x20 < c.toNat
  place : ¬IsPlace cs

instance (special : Bool) (cs : List Char) : Decidable (IsSegment special cs) :=
  decidable_of_iff (cs.all (fun c => !breaks.contains c) = true ∧ (special = true → '\\' ∉ cs) ∧
      cs.getLast?.all (fun c => 0x20 < c.toNat) = true ∧ ¬IsPlace cs) <| by
    simp only [List.all_eq_true, Option.all_eq_true, Bool.not_eq_true', ← Bool.not_eq_true,
      List.contains_iff_mem, decide_eq_true_eq]
    exact ⟨fun h => ⟨h.1, h.2.1, h.2.2.1, h.2.2.2⟩,
      fun h => ⟨h.unbroken, h.backslash, h.last, h.place⟩⟩

example : IsSegment false ['a', '\\', 'b'] ∧ ¬IsSegment true ['a', '\\', 'b'] := by decide

/-- Whether a character stays where it is inside of a text. -/
def isInner (c : Char) : Bool :=
  c != '\t' && c != '\n' && c != '\r'

/-- What is left of the text at the end of a reference: no blanks or control characters at its end,
and no tabs or line ends anywhere. -/
def kept (cs : List Char) : List Char :=
  ((cs.reverse.dropWhile isEdge).reverse).filter isInner

/-- Whether a character is in front of the query and the fragment. -/
def inPath (c : Char) : Bool :=
  !(c == '?' || c == '#')

theorem dropWhile_eq_self_iff {p : Char → Bool} :
    cs.dropWhile p = cs ↔ ∀ c ∈ cs.head?, p c = false := by
  rw [List.dropWhile_eq_self_iff]
  cases cs with
  | nil => simp
  | cons c rest => simp

theorem isEdge_eq_false_iff : isEdge c = false ↔ 0x20 < c.toNat := by
  rw [isEdge, decide_eq_false_iff_not, Nat.not_le]

theorem isInner_of_lt (h : 0x20 < c.toNat) : isInner c = true := by
  have hn : ∀ d : Char, d.toNat ≤ 0x20 → (c != d) = true := by
    intro d hd
    rw [bne_iff_ne]
    rintro rfl
    exact absurd h (Nat.not_lt.2 hd)
  rw [isInner, hn _ (by decide), hn _ (by decide), hn _ (by decide)]
  rfl

/-- What is left of a text behind one of which nothing is dropped. -/
theorem clean_append (nonempty : front ≠ []) (h : ∀ c ∈ front, 0x20 < c.toNat) (cs : List Char) :
    clean (String.ofList (front ++ cs)) = front ++ kept cs := by
  have hf : (front ++ cs).dropWhile isEdge = front ++ cs := by
    rw [dropWhile_eq_self_iff, List.head?_append, Option.or_of_isSome (by simpa using nonempty)]
    exact fun c hc => isEdge_eq_false_iff.2 (h c (List.mem_of_head? hc))
  have hl : (cs.reverse ++ front.reverse).dropWhile isEdge =
      cs.reverse.dropWhile isEdge ++ front.reverse := by
    have hr : front.reverse.dropWhile isEdge = front.reverse := by
      rw [dropWhile_eq_self_iff, List.head?_reverse]
      exact fun c hc => isEdge_eq_false_iff.2 (h c (List.mem_of_getLast? hc))
    rw [List.dropWhile_append, hr]
    split
    · rename_i he
      rw [List.isEmpty_iff.1 he, List.nil_append]
    · rfl
  have hi : ∀ c ∈ front, isInner c = true := fun c hc => isInner_of_lt (h c hc)
  unfold clean kept
  rw [String.toList_ofList]
  change List.filter isInner _ = _
  rw [hf, List.reverse_append, hl, List.reverse_append, List.reverse_reverse, List.filter_append,
    List.filter_eq_self.2 hi]

theorem reverse_dropWhile_sublist (p : Char → Bool) (cs : List Char) :
    (cs.reverse.dropWhile p).reverse.Sublist cs := by
  have h := (List.dropWhile_sublist p (l := cs.reverse)).reverse
  rwa [List.reverse_reverse] at h

theorem kept_sublist (cs : List Char) : (kept cs).Sublist cs :=
  List.filter_sublist.trans (reverse_dropWhile_sublist isEdge cs)

theorem kept_eq_self_iff : kept cs = cs ↔ (∀ c ∈ cs.getLast?, isEdge c = false) ∧
    ∀ c ∈ cs, isInner c = true := by
  have he : (cs.reverse.dropWhile isEdge).reverse = cs ↔ ∀ c ∈ cs.getLast?, isEdge c = false := by
    rw [List.reverse_eq_iff, dropWhile_eq_self_iff, List.head?_reverse]
  rw [← he]
  constructor
  · intro h
    have hl : (kept cs).length ≤ (cs.reverse.dropWhile isEdge).reverse.length :=
      List.filter_sublist.length_le
    rw [h] at hl
    have ht : (cs.reverse.dropWhile isEdge).reverse = cs :=
      (reverse_dropWhile_sublist isEdge cs).eq_of_length_le hl
    rw [kept, ht] at h
    exact ⟨ht, List.filter_eq_self.1 h⟩
  · rintro ⟨ht, hi⟩
    rw [kept, ht, List.filter_eq_self]
    exact hi

theorem IsSegment.isSlash_eq_false (h : IsSegment special cs) (hc : c ∈ cs) :
    isSlash special c = false := by
  rw [isSlash, Bool.or_eq_false_iff, beq_eq_false_iff_ne, ne_eq]
  refine ⟨fun he => h.unbroken c hc (he ▸ by decide), ?_⟩
  cases special with
  | false => rfl
  | true =>
    rw [Bool.true_and, beq_eq_false_iff_ne, ne_eq]
    exact fun he => h.backslash rfl (he ▸ hc)

theorem IsSegment.inPath_eq_true (h : IsSegment special cs) (hc : c ∈ cs) : inPath c = true := by
  rw [inPath, Bool.not_eq_true', Bool.or_eq_false_iff, beq_eq_false_iff_ne, beq_eq_false_iff_ne]
  exact ⟨fun he => h.unbroken c hc (he ▸ by decide), fun he => h.unbroken c hc (he ▸ by decide)⟩

theorem IsSegment.kept_eq_self (h : IsSegment special cs) : kept cs = cs := by
  refine kept_eq_self_iff.2 ⟨fun c hc => isEdge_eq_false_iff.2 (h.last c hc), fun c hc => ?_⟩
  have hb := h.unbroken c hc
  simp only [breaks, List.mem_cons, List.not_mem_nil, or_false, not_or] at hb
  simp [isInner, hb]

/-- A text that is read as a whole, without being divided, is a segment. -/
theorem isSegment_of_whole (hs : ∀ c ∈ cs, isSlash special c = false)
    (hp : ∀ c ∈ cs, inPath c = true) (hk : kept cs = cs) (place : ¬IsPlace cs) :
    IsSegment special cs := by
  obtain ⟨hl, hi⟩ := kept_eq_self_iff.1 hk
  refine ⟨fun c hc hb => ?_, ?_, fun c hc => isEdge_eq_false_iff.1 (hl c hc), place⟩
  · have h1 := hs c hc
    have h2 := hp c hc
    have h3 := hi c hc
    simp only [breaks, List.mem_cons, List.not_mem_nil, or_false] at hb
    rcases hb with rfl | rfl | rfl | rfl | rfl | rfl
    · cases h1
    · cases h2
    · cases h2
    · cases h3
    · cases h3
    · cases h3
  · rintro rfl hm
    cases hs _ hm

/-- A text of letters and digits is a segment without escapes. -/
theorem isSegment_of_isAlphanum (h : ∀ c ∈ cs, c.isAlphanum = true)
    (special : Bool) : IsSegment special cs ∧ ¬HasEscape cs := by
  have hno : ∀ c, c.isAlphanum = false → c ∉ cs := by
    intro c hc hm
    rw [h c hm] at hc
    cases hc
  have hpoint : ∀ a ∈ pointTexts, ∀ b, cs ≠ a ++ b := by
    rintro a ha b rfl
    have hd : ∀ a ∈ pointTexts, a.all Char.isAlphanum = false := by decide
    have ht : a.all Char.isAlphanum = true :=
      List.all_eq_true.2 fun c hc => h c (List.mem_append_left b hc)
    exact absurd ((hd a ha).symm.trans ht) (by decide)
  refine ⟨⟨fun c hc hb => ?_, fun _ => hno _ (by decide), fun c hc => ?_, ?_⟩, ?_⟩
  · have hd : breaks.all (fun c => !c.isAlphanum) = true := by decide
    have hn := List.all_eq_true.1 hd c hb
    rw [h c hc] at hn
    cases hn
  · rcases Bool.or_eq_true_iff.1 (h c (List.mem_of_getLast? hc)) with hc | hc
    · have ha := toNat_of_isAlpha hc
      omega
    · have hd := (Char.isDigit_iff_toNat.1 hc).1
      exact Nat.lt_of_lt_of_le (by decide) hd
  · rintro (hm | ⟨a, ha, b, -, hs⟩)
    · exact hpoint cs hm [] (List.append_nil cs).symm
    · exact hpoint a ha b hs
  · rintro ⟨before, after, hs, -⟩
    exact hno '%' (by decide) (hs ▸ List.mem_append_right before List.mem_cons_self)

/-! ## Directories -/

/-- Directories, with a slash behind each. -/
def directoryText (dirs : List (List Char)) : List Char :=
  dirs.flatMap fun d => d ++ ['/']

theorem directoryText_cons (d : List Char) (dirs : List (List Char)) (cs : List Char) :
    directoryText (d :: dirs) ++ cs = d ++ '/' :: (directoryText dirs ++ cs) := by
  simp [directoryText]

theorem splitPath_ne_nil (special : Bool) (cs : List Char) : splitPath special cs ≠ [] :=
  List.splitOnP_ne_nil (isSlash special) cs

theorem splitPath_directoryText (h : ∀ d ∈ dirs, IsSegment special d) (cs : List Char) :
    splitPath special (directoryText dirs ++ cs) = dirs ++ splitPath special cs := by
  induction dirs with
  | nil => rfl
  | cons d dirs ih =>
    obtain ⟨hd, hr⟩ := List.forall_mem_cons.1 h
    rw [directoryText_cons, splitPath, List.splitOnP_append_cons_of_forall_mem
      (fun c hc => hd.isSlash_eq_false hc) '/' rfl, List.cons_append, ← ih hr]
    rfl

theorem inPath_directoryText (h : ∀ d ∈ dirs, IsSegment special d) (hc : c ∈ directoryText dirs) :
    inPath c = true := by
  obtain ⟨d, hd, hm⟩ := List.mem_flatMap.1 hc
  rcases List.mem_append.1 hm with hm | hm
  · exact (h d hd).inPath_eq_true hm
  · rw [List.mem_singleton.1 hm]
    rfl

theorem resolve_cons (h : ¬IsPlace segment) (hs : segments ≠ []) :
    resolve done (segment :: segments) = resolve (encode inPathSet segment :: done) segments := by
  obtain ⟨hd, hs'⟩ := not_isPlace_iff.1 h
  obtain ⟨next, rest, rfl⟩ := List.exists_cons_of_ne_nil hs
  rw [resolve, hd, hs']
  · rfl
  · exact List.cons_ne_nil next rest

/-- Segments that are no places stay where they are, whatever follows them. -/
theorem resolve_directories (done : List String) (h : ∀ d ∈ dirs, ¬IsPlace d)
    (hs : segments ≠ []) :
    resolve done (dirs ++ segments) =
      resolve ((dirs.map (encode inPathSet)).reverse ++ done) segments := by
  induction dirs generalizing done with
  | nil => rfl
  | cons d dirs ih =>
    obtain ⟨hd, hr⟩ := List.forall_mem_cons.1 h
    rw [List.cons_append, resolve_cons hd (List.append_ne_nil_of_right_ne_nil dirs hs), ih _ hr,
      List.map_cons, List.reverse_cons, List.append_assoc]
    rfl

theorem joinPath_directories (hp : base.path = .segments (names ++ [""]))
    (hd : ∀ d ∈ dirs, IsSegment (isSpecial base.scheme) d) (cs : List Char) :
    joinPath base (directoryText dirs ++ cs) =
      { base with
        path := .segments (resolve ((dirs.map (encode inPathSet)).reverse ++ names.reverse)
          (splitPath (isSpecial base.scheme) (cs.takeWhile inPath)))
        query := (readEnd (isSpecial base.scheme) (cs.dropWhile inPath)).1
        fragment := (readEnd (isSpecial base.scheme) (cs.dropWhile inPath)).2 } := by
  have ht : (directoryText dirs ++ cs).takeWhile inPath =
      directoryText dirs ++ cs.takeWhile inPath :=
    List.takeWhile_append_of_pos fun _ hc => inPath_directoryText hd hc
  have he : (directoryText dirs ++ cs).dropWhile inPath = cs.dropWhile inPath :=
    List.dropWhile_append_of_pos fun _ hc => inPath_directoryText hd hc
  have hn : UrlPath.parents base.path = names.reverse := by
    rw [hp, UrlPath.parents, List.dropLast_concat]
  have hr := resolve_directories names.reverse (fun d h => (hd d h).place)
    (splitPath_ne_nil (isSpecial base.scheme) (cs.takeWhile inPath))
  unfold inPath at *
  unfold joinPath
  dsimp only
  rw [ht, he, hn, splitPath_directoryText hd, hr]

/-- A segment behind directories is added to the path of a base, and nothing else is. -/
theorem joinPath_segment (hp : base.path = .segments (names ++ [""]))
    (hd : ∀ d ∈ dirs, IsSegment (isSpecial base.scheme) d)
    (hs : IsSegment (isSpecial base.scheme) cs) :
    joinPath base (directoryText dirs ++ kept cs) =
      { base with
        path := .segments (names ++ dirs.map (encode inPathSet) ++ [encode inPathSet cs])
        query := none
        fragment := none } := by
  have ha : ∀ c ∈ cs, inPath c = true := fun c hc => hs.inPath_eq_true hc
  have ht : cs.takeWhile inPath = cs := List.takeWhile_eq_self_iff.2 ha
  have he : cs.dropWhile inPath = [] := List.dropWhile_eq_nil_iff.2 ha
  have hw : splitPath (isSpecial base.scheme) cs = [cs] :=
    List.splitOnP_eq_singleton fun c hc => hs.isSlash_eq_false hc
  obtain ⟨hdd, hsd⟩ := not_isPlace_iff.1 hs.place
  rw [joinPath_directories hp hd, hs.kept_eq_self, ht, he, hw, resolve, hdd, hsd]
  simp [readEnd, splitFragment]

/-! ## The last segment -/

/-- What the last segment of a text leaves at the end of a path. -/
def segmentName (last : List Char) : String :=
  if IsPlace last then "" else encode inPathSet last

theorem getLast?_resolve (h : segments ≠ []) :
    (resolve done segments).getLast? = segments.getLast?.map segmentName := by
  have hr : ∀ {segment : List Char} {rest : List (List Char)}, (rest = [] → False) →
      (segment :: rest).getLast? = rest.getLast? := by
    intro segment rest hne
    obtain ⟨next, rest, rfl⟩ := List.exists_cons_of_ne_nil hne
    exact List.getLast?_cons_cons
  fun_induction resolve done segments with
  | case1 => exact absurd rfl h
  | case2 done only hd =>
    have hp : IsPlace only := .inr (isDoubleDot_iff.1 hd)
    rw [List.getLast?_reverse, List.head?_cons, List.getLast?_singleton, Option.map_some,
      segmentName, if_pos hp]
  | case3 done only _ hs =>
    have hp : IsPlace only := .inl (isSingleDot_iff.1 hs)
    rw [List.getLast?_reverse, List.head?_cons, List.getLast?_singleton, Option.map_some,
      segmentName, if_pos hp]
  | case4 done only hd hs =>
    have hp : ¬IsPlace only :=
      not_isPlace_iff.2 ⟨Bool.eq_false_iff.2 hd, Bool.eq_false_iff.2 hs⟩
    rw [List.getLast?_reverse, List.head?_cons, List.getLast?_singleton, Option.map_some,
      segmentName, if_neg hp]
  | case5 done segment rest hne _ ih => rw [ih hne, hr hne]
  | case6 done segment rest hne _ _ ih => rw [ih hne, hr hne]
  | case7 done segment rest hne _ _ ih => rw [ih hne, hr hne]

/-- A text of which a part makes as much as the whole text is that part. -/
theorem eq_of_sublist_of_flatMap {α : Type} {f : Char → List α} {part : List Char}
    (hf : ∀ c, f c ≠ []) (hs : part.Sublist cs)
    (hl : (cs.flatMap f).length ≤ (part.flatMap f).length) : part = cs := by
  induction hs with
  | slnil => rfl
  | @cons part cs c hs ih =>
    have hc : 0 < (f c).length := List.length_pos_iff.2 (hf c)
    have hp := (hs.flatMap f).length_le
    rw [List.flatMap_cons, List.length_append] at hl
    omega
  | cons_cons c hs ih =>
    rw [List.flatMap_cons, List.flatMap_cons, List.length_append, List.length_append] at hl
    rw [ih (Nat.le_of_add_le_add_left hl)]

/-- A part that leaves as much at the end of a path as the whole text is the text, and is no
place. -/
theorem whole_of_part {α : Type} {f : Char → List α} {part : List Char} (hf : ∀ c, f c ≠ [])
    (hs : part.Sublist cs)
    (hl : (cs.flatMap f).length ≤ if IsPlace part then 0 else (part.flatMap f).length) :
    part = cs ∧ ¬IsPlace cs := by
  split at hl
  · rename_i hp
    obtain rfl := eq_of_sublist_of_flatMap hf hs (Nat.le_trans hl (Nat.zero_le _))
    cases part with
    | nil => exact absurd hp (by decide)
    | cons c rest =>
      have hc : 0 < (f c).length := List.length_pos_iff.2 (hf c)
      rw [List.flatMap_cons, List.length_append] at hl
      omega
  · rename_i hp
    obtain rfl := eq_of_sublist_of_flatMap hf hs hl
    exact ⟨rfl, hp⟩

theorem length_segmentName (part : List Char) : (segmentName part).toList.length =
    if IsPlace part then 0 else (part.flatMap (encodeChar inPathSet)).length := by
  unfold segmentName
  split
  · rfl
  · rw [toList_encode]

theorem length_percentDecode_segmentName_le (part : List Char) :
    (percentDecode (segmentName part).toList).length ≤
      if IsPlace part then 0 else (part.flatMap String.utf8EncodeChar).length := by
  unfold segmentName
  split
  · simp [percentDecode]
  · rw [percentDecode_encode]
    exact length_percentDecode_le part

/-- What is read of a text is part of it, and all of it only if nothing breaks the text. -/
theorem exists_last (hp : base.path = .segments (names ++ [""]))
    (hd : ∀ d ∈ dirs, IsSegment (isSpecial base.scheme) d) {front : List String} {name : String}
    (h : (joinPath base (directoryText dirs ++ kept cs)).path = .segments (front ++ [name])) :
    ∃ part, part.Sublist cs ∧ name = segmentName part ∧
      (part = cs → ¬IsPlace cs → IsSegment (isSpecial base.scheme) cs) := by
  rw [joinPath_directories hp hd] at h
  have hl := congrArg List.getLast? (UrlPath.segments.inj h)
  rw [getLast?_resolve (splitPath_ne_nil _ _), List.getLast?_concat, Option.map_eq_some_iff] at hl
  obtain ⟨part, hm, hn⟩ := hl
  obtain ⟨hs, hf⟩ := of_mem_splitOnP (List.mem_of_getLast? hm)
  have ht : ((kept cs).takeWhile inPath).Sublist (kept cs) := List.takeWhile_sublist inPath
  have hk := kept_sublist cs
  refine ⟨part, hs.trans (ht.trans hk), hn.symm, fun hw place => ?_⟩
  -- Nothing is lost on the way from the text to its last segment.
  subst hw
  have hke : kept part = part := hk.eq_of_length_le (hs.trans ht).length_le
  rw [hke] at hs ht
  have hte : part.takeWhile inPath = part := ht.eq_of_length_le hs.length_le
  exact isSegment_of_whole hf (List.takeWhile_eq_self_iff.1 hte) hke place

end ChainIndexer.Url
