import ChainIndexer.Keyed

/-
  What stands in a collection.

  A collection holds some entries when each of them is shown by a value under its key and no other
  value stands in it (`Holds`). A new entry joins them when its key is put for the first time
  (`holds_put`), or when a list begins under it (`holds_append`). Entries with distinct keys that
  are put in turn are all there afterwards (`get?_ofEntries`, `length_ofEntries`).
-/

namespace ChainIndexer.Keyed

variable {α β : Type} {shows : α → β → Prop} {m : Keyed β} {entries : List (String × α)}
  {key : String}

/-- The values of a collection are those that show some entries under their keys. -/
def Holds (m : Keyed β) (entries : List (String × α)) (shows : α → β → Prop) : Prop :=
  ∀ key b, m.get? key = some b ↔ ∃ a, (key, a) ∈ entries ∧ shows a b

theorem holds_empty (shows : α → β → Prop) : (empty : Keyed β).Holds [] shows := by
  intro key b
  rw [get?_empty]
  refine ⟨nofun, ?_⟩
  rintro ⟨a, ha, _⟩
  cases ha

theorem get?_of_holds (h : m.Holds entries shows) (hk : key ∉ entries.map Prod.fst) :
    m.get? key = none := by
  cases hg : m.get? key with
  | none => rfl
  | some b =>
    obtain ⟨a, ha, _⟩ := (h key b).1 hg
    exact absurd (List.mem_map_of_mem ha) hk

theorem holds_put {a : α} {b : β} (h : m.Holds entries shows) (hk : key ∉ entries.map Prod.fst)
    (hb : ∀ b', shows a b' ↔ b' = b) : (m.put key b).Holds (entries ++ [(key, a)]) shows := by
  intro key' b'
  simp only [List.mem_append, List.mem_singleton, Prod.mk.injEq]
  rw [get?_put]
  by_cases he : key' = key
  · rw [if_pos he, Option.some.injEq, eq_comm, ← hb]
    constructor
    · intro hs
      exact ⟨a, .inr ⟨he, rfl⟩, hs⟩
    · rintro ⟨a', ha' | ⟨_, rfl⟩, hs⟩
      · rw [he] at ha'
        exact absurd (List.mem_map_of_mem ha') hk
      · exact hs
  · rw [if_neg he, h]
    constructor
    · rintro ⟨a', ha', hs⟩
      exact ⟨a', .inl ha', hs⟩
    · rintro ⟨a', ha' | ⟨rfl, _⟩, hs⟩
      · exact ⟨a', ha', hs⟩
      · exact absurd rfl he

theorem holds_append {m : Keyed (List β)} {entries : List (String × β)} {b : β}
    (h : m.Holds entries fun b bs => bs = [b]) (hk : key ∉ entries.map Prod.fst) :
    (m.append key b).Holds (entries ++ [(key, b)]) fun b bs => bs = [b] := by
  unfold append
  rw [get?_of_holds h hk]
  exact holds_put h hk fun _ => Iff.rfl

/-! ## Entries put in turn -/

theorem length_putEntry {es : List (String × α)} {a : α} (h : es.lookup key = none) :
    (putEntry key a es).length = es.length + 1 := by
  induction es with
  | nil => rfl
  | cons e rest ih =>
    obtain ⟨k, b⟩ := e
    rw [lookup_entry] at h
    split at h
    · cases h
    · rename_i hk
      unfold putEntry
      split
      · rfl
      · split
        · rw [List.length_cons, ih h, List.length_cons]
        · rename_i h₁ h₂
          exact absurd (eq_of_not_lt h₁ h₂) hk

theorem get?_foldl_put (distinct : (entries.map Prod.fst).Nodup) (m : Keyed α) (key : String) :
    (entries.foldl (fun m e => m.put e.1 e.2) m).get? key =
      (entries.lookup key).or (m.get? key) := by
  induction entries generalizing m with
  | nil => rfl
  | cons e rest ih =>
    obtain ⟨k, a⟩ := e
    obtain ⟨hk, hr⟩ := List.nodup_cons.1 distinct
    rw [List.foldl_cons, ih hr, get?_put, lookup_entry]
    by_cases h : key = k
    · have hn : rest.lookup k = none := by
        rw [List.lookup_eq_none_iff]
        intro e he
        rw [bne_iff_ne]
        exact fun h => hk (List.mem_map.2 ⟨e, he, h.symm⟩)
      rw [if_pos h, if_pos h, h, hn]
      rfl
    · rw [if_neg h, if_neg h]

theorem length_foldl_put (distinct : (entries.map Prod.fst).Nodup) {m : Keyed α}
    (new : ∀ e ∈ entries, m.get? e.1 = none) :
    (entries.foldl (fun m e => m.put e.1 e.2) m).entries.length =
      m.entries.length + entries.length := by
  induction entries generalizing m with
  | nil => rfl
  | cons e rest ih =>
    obtain ⟨hk, hr⟩ := List.nodup_cons.1 distinct
    obtain ⟨he, hn⟩ := List.forall_mem_cons.1 new
    have hp : (m.put e.1 e.2).entries.length = m.entries.length + 1 := length_putEntry he
    rw [List.foldl_cons, ih hr, hp, List.length_cons, Nat.add_assoc, Nat.add_comm 1]
    intro e' he'
    have hne : e'.1 ≠ e.1 := fun h => hk (h ▸ List.mem_map_of_mem he')
    rw [get?_put, if_neg hne]
    exact hn e' he'

/-- Entries with distinct keys keep their values when they are put in turn. -/
theorem get?_ofEntries (distinct : (entries.map Prod.fst).Nodup) (key : String) :
    (ofEntries entries).get? key = entries.lookup key := by
  rw [ofEntries, get?_foldl_put distinct, get?_empty, Option.or_none]

/-- Entries with distinct keys are as many after they are put in turn. -/
theorem length_ofEntries (distinct : (entries.map Prod.fst).Nodup) :
    (ofEntries entries).entries.length = entries.length := by
  rw [ofEntries, length_foldl_put distinct fun _ _ => get?_empty _]
  exact Nat.zero_add _

end ChainIndexer.Keyed
