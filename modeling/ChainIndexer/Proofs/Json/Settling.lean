import ChainIndexer.Json.Fields
import ChainIndexer.Proofs.Json.RoundTrip

/-
  Values of any form, read again.

  A value is `Settled` as a program holds it: the names of each object ascend, and its whole numbers
  fit 64 bits. Where such a value was written, a reader of any form finds it again exactly if the
  value is nested no deeper than the reader goes and each binary number in it is read as itself
  (`settle_reread`). `sorted` is what settling comes to where it succeeds (`eq_sorted_of_settle`).
-/

namespace ChainIndexer

open Number

/-! ## Ascending names -/

theorem ascending_iff {entries : List (String × α)} :
    Ascending entries ↔ (entries.map Prod.fst).Pairwise (· < ·) :=
  List.pairwise_map.symm

theorem putEntry_of_lt {key : String} {value : α} {entries : List (String × α)}
    (h : ∀ e ∈ entries, e.1 < key) : putEntry key value entries = entries ++ [(key, value)] := by
  induction entries with
  | nil => rfl
  | cons e rest ih =>
    obtain ⟨k, v⟩ := e
    have hk : k < key := h (k, v) List.mem_cons_self
    rw [putEntry, if_neg (String.lt_asymm hk), if_pos hk,
      ih fun e he => h e (List.mem_cons_of_mem _ he)]
    rfl

theorem foldl_putEntry_of_ascending {es fields : List (String × α)} (h : Ascending (es ++ fields)) :
    fields.foldl (fun es e => putEntry e.1 e.2 es) es = es ++ fields := by
  induction fields generalizing es with
  | nil => exact (List.append_nil es).symm
  | cons e rest ih =>
    have hlt : ∀ e' ∈ es, e'.1 < e.1 := fun e' he' =>
      (List.pairwise_append.1 h).2.2 e' he' e List.mem_cons_self
    rw [List.append_cons] at h
    rw [List.foldl_cons, putEntry_of_lt hlt, ih h, List.append_cons es e rest]

namespace Json

/-- Fields in ascending order stay as they are. -/
theorem settleFields_of_ascending {fields : List (String × Json)} (h : Ascending fields) :
    settleFields fields = fields :=
  foldl_putEntry_of_ascending (List.nil_append fields ▸ h)

/-! ## Values as they are held -/

mutual

/-- A value with ascending names in each object and whole numbers that fit. -/
def Settled : Json → Prop
  | .number n => n.Fits
  | .array items => SettledItems items
  | .object fields => Ascending fields ∧ SettledFields fields
  | .unreadable => False
  | .null => True
  | .bool _ => True
  | .text _ => True

/-- Items that are settled. -/
def SettledItems : List Json → Prop
  | [] => True
  | v :: rest => Settled v ∧ SettledItems rest

/-- Fields whose values are settled. -/
def SettledFields : List (String × Json) → Prop
  | [] => True
  | (_, v) :: rest => Settled v ∧ SettledFields rest

end

mutual

/-- How deep a value is nested. -/
def depth : Json → Nat
  | .array items => itemsDepth items + 1
  | .object fields => fieldsDepth fields + 1
  | .null => 0
  | .bool _ => 0
  | .number _ => 0
  | .text _ => 0
  | .unreadable => 0

/-- How deep the deepest item is nested. -/
def itemsDepth : List Json → Nat
  | [] => 0
  | v :: rest => max (depth v) (itemsDepth rest)

/-- How deep the deepest field is nested. -/
def fieldsDepth : List (String × Json) → Nat
  | [] => 0
  | (_, v) :: rest => max (depth v) (fieldsDepth rest)

end

mutual

/-- The binary numbers of a value. -/
def floats : Json → List Binary64
  | .number (.binary x) => [x]
  | .number (.whole _) => []
  | .array items => itemFloats items
  | .object fields => fieldFloats fields
  | .null => []
  | .bool _ => []
  | .text _ => []
  | .unreadable => []

/-- The binary numbers of items. -/
def itemFloats : List Json → List Binary64
  | [] => []
  | v :: rest => floats v ++ itemFloats rest

/-- The binary numbers of fields. -/
def fieldFloats : List (String × Json) → List Binary64
  | [] => []
  | (_, v) :: rest => floats v ++ fieldFloats rest

end

/-- Each of some binary numbers is read from its own text as itself. -/
def Recovered (xs : List Binary64) : Prop :=
  ∀ x ∈ xs, (JsonNumber.binary x).reread = .number (.binary x)

theorem recovered_append {xs ys : List Binary64} :
    Recovered (xs ++ ys) ↔ Recovered xs ∧ Recovered ys :=
  List.forall_mem_append

/-! ## Settling what was read -/

theorem names_of_settleEntries {d : Nat} {fields es : List (String × Json)}
    (h : settleEntries d fields = some es) : es.map Prod.fst = fields.map Prod.fst := by
  induction fields generalizing es with
  | nil =>
    rw [settleEntries, Option.some.injEq] at h
    rw [← h]
  | cons e rest ih =>
    obtain ⟨k, v⟩ := e
    rw [settleEntries] at h
    obtain ⟨w, _, h⟩ := Option.bind_eq_some_iff.1 h
    obtain ⟨ws, hw, h⟩ := Option.bind_eq_some_iff.1 h
    rw [← Option.some.inj h, List.map_cons, List.map_cons, ih hw]

theorem names_rereadFields (fields : List (String × Json)) :
    (rereadFields fields).map Prod.fst = fields.map Prod.fst := by
  rw [rereadFields_eq_map, List.map_map]
  rfl

/-- A number is settled to the number itself and nothing else. -/
theorem settle_eq_number {d : Nat} {v : Json} {n : JsonNumber} :
    settle d v = some (.number n) ↔ v = .number n := by
  cases v with
  | number m => simp [settle]
  | array items => cases d <;> simp [settle]
  | object fields => cases d <;> simp [settle]
  | null => simp [settle]
  | bool b => simp [settle]
  | text s => simp [settle]
  | unreadable => simp [settle]

theorem map_object_eq {d : Nat} {fields : List (String × Json)} (h : Ascending fields) :
    ((settleEntries d (rereadFields fields)).map fun es => Json.object (settleFields es))
        = some (.object fields)
      ↔ settleEntries d (rereadFields fields) = some fields := by
  constructor
  · intro hm
    obtain ⟨es, he, ho⟩ := Option.map_eq_some_iff.1 hm
    have ha : Ascending es := by
      rw [ascending_iff, names_of_settleEntries he, names_rereadFields, ← ascending_iff]
      exact h
    rw [settleFields_of_ascending ha, Json.object.injEq] at ho
    rw [he, ho]
  · intro hs
    rw [hs, Option.map_some, settleFields_of_ascending h]

mutual

/-- Where a value was written, a reader that goes `d` levels deep finds it again exactly if it is
nested no deeper and its binary numbers are recovered. -/
theorem settle_reread (d : Nat) (v : Json) (h : v.Settled) :
    settle d v.reread = some v ↔ depth v ≤ d ∧ Recovered (floats v) := by
  cases v with
  | null => simp [reread, settle, depth, floats, Recovered]
  | bool b => simp [reread, settle, depth, floats, Recovered]
  | text s => simp [reread, settle, depth, floats, Recovered]
  | unreadable => exact absurd h id
  | number n =>
    rw [reread, settle_eq_number]
    cases n with
    | whole z => simp [reread_whole h, depth, floats, Recovered]
    | binary x => simp [depth, floats, Recovered]
  | array items =>
    cases d with
    | zero => simp [reread, settle, depth]
    | succ d =>
      rw [reread, settle, depth, floats, Nat.add_le_add_iff_right, ← settleItems_reread d items h]
      simp
  | object fields =>
    cases d with
    | zero => simp [reread, settle, depth]
    | succ d =>
      rw [reread, settle, depth, floats, Nat.add_le_add_iff_right,
        ← settleEntries_reread d fields h.2, map_object_eq h.1]

theorem settleItems_reread (d : Nat) (items : List Json) (h : SettledItems items) :
    settleItems d (rereadItems items) = some items ↔
      itemsDepth items ≤ d ∧ Recovered (itemFloats items) := by
  match items with
  | [] => simp [rereadItems, settleItems, itemsDepth, itemFloats, Recovered]
  | v :: rest =>
    have hv := settle_reread d v h.1
    have hr := settleItems_reread d rest h.2
    rw [itemsDepth, itemFloats, recovered_append, Nat.max_le, and_and_and_comm, ← hv, ← hr,
      rereadItems, settleItems]
    simp [Option.bind_eq_some_iff]

theorem settleEntries_reread (d : Nat) (fields : List (String × Json)) (h : SettledFields fields) :
    settleEntries d (rereadFields fields) = some fields ↔
      fieldsDepth fields ≤ d ∧ Recovered (fieldFloats fields) := by
  match fields with
  | [] => simp [rereadFields, settleEntries, fieldsDepth, fieldFloats, Recovered]
  | (k, v) :: rest =>
    have hv := settle_reread d v h.1
    have hr := settleEntries_reread d rest h.2
    rw [fieldsDepth, fieldFloats, recovered_append, Nat.max_le, and_and_and_comm, ← hv, ← hr,
      rereadFields, settleEntries]
    simp [Option.bind_eq_some_iff]

end

/-- What a reader of any form finds where a value was written. -/
theorem readAny_reread {v : Json} (h : v.Settled) :
    readAny v.reread = .ok v ↔ depth v ≤ nestingLimit ∧ Recovered (floats v) := by
  rw [← settle_reread nestingLimit v h]
  unfold readAny
  cases settle nestingLimit v.reread with
  | none => simp
  | some w => simp

/-! ## Sorting -/

mutual

/-- A value with the fields of each object in ascending order and each name once. -/
def sorted : Json → Json
  | .null => .null
  | .bool b => .bool b
  | .number n => .number n
  | .text s => .text s
  | .array items => .array (sortedItems items)
  | .object fields => .object (settleFields (sortedEntries fields))
  | .unreadable => .unreadable

/-- Each item sorted. -/
def sortedItems : List Json → List Json
  | [] => []
  | v :: rest => sorted v :: sortedItems rest

/-- The value of each field sorted. -/
def sortedEntries : List (String × Json) → List (String × Json)
  | [] => []
  | (k, v) :: rest => (k, sorted v) :: sortedEntries rest

end

mutual

/-- What settling gives, it gives by sorting. -/
theorem eq_sorted_of_settle {d : Nat} {v w : Json} (h : settle d v = some w) : w = v.sorted := by
  cases v with
  | null => exact (Option.some.inj h).symm
  | bool b => exact (Option.some.inj h).symm
  | text s => exact (Option.some.inj h).symm
  | number n => exact (Option.some.inj h).symm
  | unreadable => exact absurd h nofun
  | array items =>
    cases d with
    | zero => exact absurd h nofun
    | succ d =>
      rw [settle] at h
      obtain ⟨ws, hs, rfl⟩ := Option.map_eq_some_iff.1 h
      rw [sorted, eq_sortedItems_of_settleItems hs]
  | object fields =>
    cases d with
    | zero => exact absurd h nofun
    | succ d =>
      rw [settle] at h
      obtain ⟨ws, hs, rfl⟩ := Option.map_eq_some_iff.1 h
      rw [sorted, eq_sortedEntries_of_settleEntries hs]

theorem eq_sortedItems_of_settleItems {d : Nat} {items ws : List Json}
    (h : settleItems d items = some ws) : ws = sortedItems items := by
  match items with
  | [] => exact (Option.some.inj h).symm
  | v :: rest =>
    rw [settleItems] at h
    obtain ⟨w, hv, h⟩ := Option.bind_eq_some_iff.1 h
    obtain ⟨us, hr, h⟩ := Option.bind_eq_some_iff.1 h
    rw [← Option.some.inj h, sortedItems, eq_sorted_of_settle hv, eq_sortedItems_of_settleItems hr]

theorem eq_sortedEntries_of_settleEntries {d : Nat} {fields ws : List (String × Json)}
    (h : settleEntries d fields = some ws) : ws = sortedEntries fields := by
  match fields with
  | [] => exact (Option.some.inj h).symm
  | (k, v) :: rest =>
    rw [settleEntries] at h
    obtain ⟨w, hv, h⟩ := Option.bind_eq_some_iff.1 h
    obtain ⟨us, hr, h⟩ := Option.bind_eq_some_iff.1 h
    rw [← Option.some.inj h, sortedEntries, eq_sorted_of_settle hv,
      eq_sortedEntries_of_settleEntries hr]

end

end Json

end ChainIndexer
