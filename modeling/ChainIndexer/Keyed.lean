/-
  Values under text keys.

  The entries stand in ascending order of their keys, each key once, so that two collections with
  the same values under the same keys are equal. `put` sets the value of a key, `get?` looks it up;
  `get?_put` says how they go together.
-/

namespace ChainIndexer

/-! ## Entries in order -/

/-- Sets the value of a key among ascending entries. -/
def putEntry (key : String) (value : α) : List (String × α) → List (String × α)
  | [] => [(key, value)]
  | (k, v) :: rest =>
    if key < k then (key, value) :: (k, v) :: rest
    else if k < key then (k, v) :: putEntry key value rest
    else (key, value) :: rest

/-- Ascending keys. -/
def Ascending (entries : List (String × α)) : Prop :=
  entries.Pairwise fun a b => a.1 < b.1

theorem mem_putEntry {key : String} {value : α} {entries : List (String × α)} {e : String × α}
    (h : e ∈ putEntry key value entries) : e = (key, value) ∨ e ∈ entries := by
  induction entries with
  | nil => simpa [putEntry] using h
  | cons x rest ih =>
    unfold putEntry at h
    split at h
    · simpa using h
    · split at h
      · rcases List.mem_cons.1 h with h | h
        · exact .inr (by simp [h])
        · rcases ih h with h | h
          · exact .inl h
          · exact .inr (by simp [h])
      · rcases List.mem_cons.1 h with h | h
        · exact .inl h
        · exact .inr (by simp [h])

theorem eq_of_not_lt {a b : String} (h : ¬a < b) (h' : ¬b < a) : a = b :=
  String.le_antisymm (String.not_lt.1 h') (String.not_lt.1 h)

theorem ascending_putEntry (key : String) (value : α) {entries : List (String × α)}
    (h : Ascending entries) : Ascending (putEntry key value entries) := by
  induction entries with
  | nil => simp [putEntry, Ascending]
  | cons x rest ih =>
    obtain ⟨k, v⟩ := x
    have hx := List.pairwise_cons.1 h
    unfold putEntry
    split
    · rename_i hk
      refine List.pairwise_cons.2 ⟨fun e he => ?_, h⟩
      rcases List.mem_cons.1 he with rfl | he
      · exact hk
      · exact String.lt_trans hk (hx.1 e he)
    · split
      · rename_i hk
        refine List.pairwise_cons.2 ⟨fun e he => ?_, ih hx.2⟩
        rcases mem_putEntry he with rfl | he
        · exact hk
        · exact hx.1 e he
      · rename_i h1 h2
        have : key = k := eq_of_not_lt h1 h2
        subst this
        exact List.pairwise_cons.2 ⟨hx.1, hx.2⟩

/-! ## Collections -/

/-- Values under distinct keys, in ascending order of the keys. -/
structure Keyed (α : Type) where
  entries : List (String × α)
  ascending : Ascending entries

namespace Keyed

/-- No value at all. -/
def empty : Keyed α :=
  ⟨[], List.Pairwise.nil⟩

instance : Inhabited (Keyed α) := ⟨empty⟩

theorem ext_entries {a b : Keyed α} (h : a.entries = b.entries) : a = b := by
  cases a; cases b; simp_all

instance [DecidableEq α] : DecidableEq (Keyed α) := fun a b =>
  if h : a.entries = b.entries then .isTrue (ext_entries h)
  else .isFalse fun h' => h (h' ▸ rfl)

/-- Whether there is no value. -/
def isEmpty (m : Keyed α) : Bool :=
  m.entries.isEmpty

/-- Sets the value of a key. -/
def put (m : Keyed α) (key : String) (value : α) : Keyed α :=
  ⟨putEntry key value m.entries, ascending_putEntry key value m.ascending⟩

/-- The value of a key. -/
def get? (m : Keyed α) (key : String) : Option α :=
  m.entries.lookup key

/-- The entries put in turn: of one key the last value stays. -/
def ofEntries (entries : List (String × α)) : Keyed α :=
  entries.foldl (fun m e => m.put e.1 e.2) empty

/-- One value under one key. -/
def single (key : String) (value : α) : Keyed α :=
  empty.put key value

/-- Adds an item to the list under a key. -/
def append (m : Keyed (List α)) (key : String) (item : α) : Keyed (List α) :=
  m.put key ((m.get? key).getD [] ++ [item])

theorem lookup_entry (key k : String) (v : α) (rest : List (String × α)) :
    List.lookup key ((k, v) :: rest) = if key = k then some v else rest.lookup key := by
  by_cases h : key = k
  · simp [h]
  · have : (key == k) = false := by simpa using h
    simp [List.lookup_cons, h, this]

theorem lookup_putEntry (key key' : String) (value : α) (entries : List (String × α)) :
    (putEntry key value entries).lookup key' = if key' = key then some value
      else entries.lookup key' := by
  induction entries with
  | nil => rw [putEntry, lookup_entry]
  | cons x rest ih =>
    obtain ⟨k, v⟩ := x
    unfold putEntry
    split
    · rw [lookup_entry]
    · split
      · rename_i hk
        rw [lookup_entry, ih, lookup_entry]
        by_cases h1 : key' = k
        · subst h1
          have : key' ≠ key := fun h2 => String.lt_irrefl key (h2 ▸ hk)
          rw [if_pos rfl, if_neg this, if_pos rfl]
        · rw [if_neg h1, if_neg h1]
      · rename_i h1 h2
        obtain rfl : key = k := eq_of_not_lt h1 h2
        rw [lookup_entry, lookup_entry]
        by_cases h : key' = key
        · rw [if_pos h, if_pos h]
        · rw [if_neg h, if_neg h, if_neg h]

/-- A key has the value last put, and every other key keeps its value. -/
theorem get?_put (m : Keyed α) (key key' : String) (value : α) :
    (m.put key value).get? key' = if key' = key then some value else m.get? key' :=
  lookup_putEntry key key' value m.entries

theorem get?_empty (key : String) : (empty : Keyed α).get? key = none := rfl

end Keyed

end ChainIndexer
