import ChainIndexer.Proofs.Json.Quoting
import ChainIndexer.Proofs.Json.Numbers

/-
  Documents, written and read again.

  A value is read from its text as itself, but for the numbers in it (`read?_toText`): each of them
  becomes what its own text is read as. The fuel of the reader is the length of the text, and the
  induction is on the value. None of the characters of a document breaks a line
  (`le_of_mem_chars`).
-/

namespace ChainIndexer.Json

mutual

/-- What is read where a value was written. -/
def reread : Json → Json
  | .null => .null
  | .bool b => .bool b
  | .number n => n.reread
  | .text s => .text s
  | .array items => .array (rereadItems items)
  | .object fields => .object (rereadFields fields)
  | .unreadable => .null

/-- What is read where items were written. -/
def rereadItems : List Json → List Json
  | [] => []
  | v :: rest => reread v :: rereadItems rest

/-- What is read where fields were written. -/
def rereadFields : List (String × Json) → List (String × Json)
  | [] => []
  | (k, v) :: rest => (k, reread v) :: rereadFields rest

end

theorem rereadItems_eq_map (items : List Json) : rereadItems items = items.map reread := by
  induction items with
  | nil => rfl
  | cons v rest ih => rw [rereadItems, ih, List.map_cons]

theorem rereadFields_eq_map (fields : List (String × Json)) :
    rereadFields fields = fields.map fun e => (e.1, reread e.2) := by
  induction fields with
  | nil => rfl
  | cons e rest ih => rw [rereadFields, ih, List.map_cons]

/-! ## Tokens -/

theorem skipSpace_cons {c : Char} (h : isSpace c = false) (cs : List Char) :
    skipSpace (c :: cs) = c :: cs := by
  unfold skipSpace
  rw [List.dropWhile_cons_of_neg (by simp [h])]

/-- A character with which a value may begin. -/
def Opens (c : Char) : Prop :=
  isSpace c = false ∧ c ≠ ']' ∧ c ≠ '\x7d'

theorem opens_of_isDigit {c : Char} (h : c.isDigit = true) : Opens c := by
  have hd : ∀ d : Char, d.isDigit = false → c ≠ d := by
    rintro d hn rfl
    rw [h] at hn
    exact absurd hn nofun
  have hs : isSpace c = false := by
    unfold isSpace
    rw [beq_eq_false_iff_ne.2 (hd ' ' (by decide)), beq_eq_false_iff_ne.2 (hd '\n' (by decide)),
      beq_eq_false_iff_ne.2 (hd '\r' (by decide)), beq_eq_false_iff_ne.2 (hd '\t' (by decide))]
    rfl
  exact ⟨hs, hd ']' (by decide), hd '\x7d' (by decide)⟩

theorem head_chars (v : Json) : ∃ c cs, chars v = c :: cs ∧ Opens c := by
  cases v with
  | null => exact ⟨_, _, rfl, by decide, by decide, by decide⟩
  | bool b =>
    cases b with
    | true => exact ⟨_, _, rfl, by decide, by decide, by decide⟩
    | false => exact ⟨_, _, rfl, by decide, by decide, by decide⟩
  | number n =>
    obtain ⟨c, cs, hc, hd | rfl⟩ := head_numberChars n
    · exact ⟨c, cs, hc, opens_of_isDigit hd⟩
    · exact ⟨_, cs, hc, by decide, by decide, by decide⟩
  | text s => exact ⟨_, _, rfl, by decide, by decide, by decide⟩
  | array items => exact ⟨_, _, rfl, by decide, by decide, by decide⟩
  | object fields => exact ⟨_, _, rfl, by decide, by decide, by decide⟩
  | unreadable => exact ⟨_, _, rfl, by decide, by decide, by decide⟩

theorem head_itemChars (v : Json) (items : List Json) :
    ∃ c cs, itemChars (v :: items) = c :: cs ∧ Opens c := by
  obtain ⟨c, cs, hc, ho⟩ := head_chars v
  cases items with
  | nil => exact ⟨c, cs, hc, ho⟩
  | cons w rest => exact ⟨c, cs ++ ',' :: itemChars (w :: rest), by rw [itemChars, hc]; rfl, ho⟩

theorem head_fieldChars (k : String) (v : Json) (fields : List (String × Json)) :
    ∃ cs, fieldChars ((k, v) :: fields) = '"' :: cs := by
  cases fields with
  | nil => exact ⟨_, rfl⟩
  | cons e rest => exact ⟨_, rfl⟩

theorem readValue_number {c : Char} (h : c.isDigit = true ∨ c = '-') (fuel : Nat) (cs : List Char) :
    readValue (fuel + 1) (c :: cs) = readNumber (c :: cs) := by
  have hs : isSpace c = false := by
    rcases h with h | rfl
    · exact (opens_of_isDigit h).1
    · decide
  have hn : ∀ d : Char, d.isDigit = false → d ≠ '-' → c ≠ d := by
    rintro d hd hm rfl
    rcases h with h | h
    · rw [h] at hd
      exact absurd hd nofun
    · exact hm h
  rw [readValue, skipSpace_cons hs]
  split
  all_goals first
    | rename_i he
      exact absurd (List.cons.inj he).1 (hn _ (by decide) (by decide))
    | rfl

theorem readValue_array {c : Char} {cs rest : List Char} {fuel : Nat} {items : List Json}
    (ho : Opens c) (h : readItems fuel (c :: cs) = some (items, rest)) :
    readValue (fuel + 1) ('[' :: c :: cs) = some (.array items, rest) := by
  rw [readValue, skipSpace_cons (by decide)]
  simp only [skipSpace_cons ho.1]
  split
  · rename_i he
    exact absurd (List.cons.inj he).1 ho.2.1
  · rw [h]
    rfl

theorem objectOf_named (fields : List (String × Json)) :
    objectOf (fields.map fun e => (some e.1, e.2)) = .object fields := by
  have hm {f : Option String × Json → Option (String × Json)}
      (hf : ∀ e, f (some e.1, e.2) = some e) :
      (fields.map fun e => (some e.1, e.2)).mapM f = some fields := by
    induction fields with
    | nil => rfl
    | cons e rest ih =>
      rw [List.map_cons, List.mapM_cons, ih, hf]
      rfl
  unfold objectOf
  rw [hm fun _ => rfl]

theorem readValue_object {cs rest : List Char} {fuel : Nat} {fields : List (String × Json)}
    (h : readFields fuel ('"' :: cs) = some (fields.map fun e => (some e.1, e.2), rest)) :
    readValue (fuel + 1) ('\x7b' :: '"' :: cs) = some (.object fields, rest) := by
  rw [readValue, skipSpace_cons (by decide)]
  simp only [skipSpace_cons (c := '"') (by decide)]
  split
  · rename_i he
    exact absurd (List.cons.inj he).1 (by decide)
  · simp only [h, Option.bind_eq_bind, Option.bind_some, objectOf_named]
    rfl

/-! ## Values -/

theorem closes_comma (cs : List Char) : Closes (',' :: cs) :=
  closes_cons (by decide) (by decide)

theorem closes_bracket (cs : List Char) : Closes (']' :: cs) :=
  closes_cons (by decide) (by decide)

theorem closes_brace (cs : List Char) : Closes ('\x7d' :: cs) :=
  closes_cons (by decide) (by decide)

theorem length_quote (s : String) : 2 ≤ (quote s).length := by
  simp [quote]

theorem quote_append (s : String) (cs : List Char) :
    quote s ++ cs = '"' :: (s.toList.flatMap escapeChar ++ '"' :: cs) := by
  simp [quote]

mutual

/-- A value is read from its text, whatever closes it. -/
theorem readValue_chars (v : Json) {fuel : Nat} {rest : List Char} (hf : (chars v).length ≤ fuel)
    (hr : Closes rest) : readValue fuel (chars v ++ rest) = some (v.reread, rest) := by
  obtain ⟨c, cs, hc, _⟩ := head_chars v
  have hp : 0 < fuel := by
    rw [hc, List.length_cons] at hf
    omega
  obtain ⟨fuel, rfl⟩ : ∃ k, fuel = k + 1 := Nat.exists_eq_add_one.2 hp
  cases v with
  | null => rfl
  | unreadable => rfl
  | bool b =>
    cases b with
    | true => rfl
    | false => rfl
  | number n =>
    obtain ⟨c, cs, hc, hd⟩ := head_numberChars n
    have hn := readNumber_numberChars hr n
    rw [chars]
    rw [hc, List.cons_append] at hn ⊢
    rw [readValue_number hd, hn]
    rfl
  | text s =>
    rw [chars, quote_append, readValue, skipSpace_cons (by decide)]
    simp only [readQuoted_escaped]
    rfl
  | array items =>
    cases items with
    | nil => rfl
    | cons v items =>
      obtain ⟨c, cs, hc, ho⟩ := head_itemChars v items
      have hl : (itemChars (v :: items)).length + 1 ≤ fuel := by
        simp [chars] at hf
        omega
      have hi := readItems_chars (v :: items) rest nofun hl
      rw [chars, List.cons_append, List.append_assoc, List.singleton_append]
      rw [hc] at hi ⊢
      exact readValue_array ho hi
  | object fields =>
    cases fields with
    | nil => rfl
    | cons e fields =>
      obtain ⟨k, v⟩ := e
      have hl : (fieldChars ((k, v) :: fields)).length + 1 ≤ fuel := by
        simp [chars] at hf
        omega
      have hi := readFields_chars ((k, v) :: fields) rest nofun hl
      obtain ⟨cs, hc⟩ := head_fieldChars k v fields
      rw [chars, List.cons_append, List.append_assoc, List.singleton_append]
      rw [hc] at hi ⊢
      exact readValue_object hi

/-- Items are read up to the closing bracket. -/
theorem readItems_chars (items : List Json) {fuel : Nat} (rest : List Char) (hne : items ≠ [])
    (hf : (itemChars items).length + 1 ≤ fuel) :
    readItems fuel (itemChars items ++ ']' :: rest) = some (rereadItems items, rest) := by
  obtain ⟨fuel, rfl⟩ : ∃ k, fuel = k + 1 := Nat.exists_eq_add_one.2 (by omega)
  match items with
  | [] => exact absurd rfl hne
  | [v] =>
    rw [itemChars] at hf ⊢
    rw [readItems, readValue_chars v (by omega) (closes_bracket rest)]
    rfl
  | v :: w :: items =>
    rw [itemChars] at hf ⊢
    simp only [List.length_append, List.length_cons] at hf
    rw [List.append_assoc, List.cons_append, readItems,
      readValue_chars v (by omega) (closes_comma _)]
    simp only [Option.bind_eq_bind, Option.bind_some, skipSpace_cons (c := ',') (by decide)]
    rw [readItems_chars (w :: items) rest nofun (by omega)]
    rfl

/-- Fields are read up to the closing brace. -/
theorem readFields_chars (fields : List (String × Json)) {fuel : Nat} (rest : List Char)
    (hne : fields ≠ []) (hf : (fieldChars fields).length + 1 ≤ fuel) :
    readFields fuel (fieldChars fields ++ '\x7d' :: rest)
      = some ((rereadFields fields).map fun e => (some e.1, e.2), rest) := by
  obtain ⟨fuel, rfl⟩ : ∃ k, fuel = k + 1 := Nat.exists_eq_add_one.2 (by omega)
  match fields with
  | [] => exact absurd rfl hne
  | [(k, v)] =>
    have hq := length_quote k
    rw [fieldChars] at hf ⊢
    simp only [List.length_append, List.length_cons] at hf
    rw [List.append_assoc, List.cons_append, quote_append, readFields, skipSpace_cons (by decide)]
    simp only [readQuoted_escaped, Option.bind_eq_bind, Option.bind_some,
      skipSpace_cons (c := ':') (by decide)]
    rw [readValue_chars v (by omega) (closes_brace rest)]
    rfl
  | (k, v) :: e :: fields =>
    have hq := length_quote k
    rw [fieldChars] at hf ⊢
    simp only [List.length_append, List.length_cons] at hf
    simp only [List.append_assoc, List.cons_append]
    rw [quote_append, readFields, skipSpace_cons (by decide)]
    simp only [readQuoted_escaped, Option.bind_eq_bind, Option.bind_some,
      skipSpace_cons (c := ':') (by decide)]
    rw [readValue_chars v (by omega) (closes_comma _)]
    simp only [Option.bind_some, skipSpace_cons (c := ',') (by decide)]
    rw [readFields_chars (e :: fields) rest nofun (by omega)]
    rfl

end

/-- A document is read as the value that was written, but for the numbers in it. -/
theorem read?_toText (v : Json) : read? v.toText = some v.reread := by
  have hf : v.chars.length ≤ 2 * v.chars.length + 2 := by omega
  have hr := readValue_chars v hf closes_nil
  rw [List.append_nil] at hr
  unfold read? toText readChars?
  rw [String.toList_ofList, hr]
  rfl

/-! ## Lines -/

mutual

/-- None of the characters of a document breaks a line. -/
theorem le_of_mem_chars (v : Json) : ∀ c ∈ chars v, 32 ≤ c.toNat := by
  cases v with
  | null => exact le_of_all (by decide)
  | unreadable => exact le_of_all (by decide)
  | bool b => cases b <;> exact le_of_all (by decide)
  | number n => exact le_of_mem_numberChars
  | text s => exact fun c hc => le_of_mem_quote hc
  | array items =>
    refine List.forall_mem_cons.2 ⟨by decide, List.forall_mem_append.2 ⟨?_, le_of_all (by decide)⟩⟩
    exact le_of_mem_itemChars items
  | object fields =>
    refine List.forall_mem_cons.2 ⟨by decide, List.forall_mem_append.2 ⟨?_, le_of_all (by decide)⟩⟩
    exact le_of_mem_fieldChars fields

theorem le_of_mem_itemChars (items : List Json) : ∀ c ∈ itemChars items, 32 ≤ c.toNat := by
  match items with
  | [] => exact nofun
  | [v] => exact le_of_mem_chars v
  | v :: w :: rest =>
    refine List.forall_mem_append.2 ⟨le_of_mem_chars v, List.forall_mem_cons.2 ⟨by decide, ?_⟩⟩
    exact le_of_mem_itemChars (w :: rest)

theorem le_of_mem_fieldChars (fields : List (String × Json)) :
    ∀ c ∈ fieldChars fields, 32 ≤ c.toNat := by
  match fields with
  | [] => exact nofun
  | [(k, v)] =>
    refine List.forall_mem_append.2 ⟨fun c hc => le_of_mem_quote hc, ?_⟩
    exact List.forall_mem_cons.2 ⟨by decide, le_of_mem_chars v⟩
  | (k, v) :: e :: rest =>
    refine List.forall_mem_append.2 ⟨fun c hc => le_of_mem_quote hc, ?_⟩
    refine List.forall_mem_cons.2 ⟨by decide, List.forall_mem_append.2 ⟨le_of_mem_chars v, ?_⟩⟩
    exact List.forall_mem_cons.2 ⟨by decide, le_of_mem_fieldChars (e :: rest)⟩

end

end ChainIndexer.Json
