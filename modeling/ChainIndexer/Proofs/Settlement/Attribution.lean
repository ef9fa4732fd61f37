import ChainIndexer.Settlement

/-
  Who receives an amount.

  `attributedIn` goes through the attributes of an event with the recipient named last. Here the
  same is said of each place on its own: the amount in a place belongs to the last recipient among
  the attributes before it (`attributed_eq_placed`).
-/

namespace ChainIndexer.Settlement

/-- The recipient named last in some attributes. -/
def lastNamed? (as : List LogAttribute) : Option String :=
  (as.reverse.find? (·.key == recipientKey)).map (·.value)

/-- The amount in a place of some attributes, with the recipient named last before it. -/
def amountAt? (as : List LogAttribute) (i : Nat) : Option (String × String) :=
  as[i]?.bind fun a =>
    if a.key = amountKey then (lastNamed? (as.take i)).map fun recipient => (recipient, a.value)
    else none

theorem lastNamed?_append_singleton (as : List LogAttribute) (a : LogAttribute) :
    lastNamed? (as ++ [a]) = if a.key = recipientKey then some a.value else lastNamed? as := by
  unfold lastNamed?
  rw [List.reverse_append, List.reverse_singleton, List.singleton_append, List.find?_cons]
  by_cases h : a.key = recipientKey
  · rw [if_pos h]
    simp [h]
  · have hb : (a.key == recipientKey) = false := by simpa using h
    rw [if_neg h, hb]

theorem amountAt?_length (before rest : List LogAttribute) (a : LogAttribute) :
    amountAt? (before ++ a :: rest) before.length =
      if a.key = amountKey then (lastNamed? before).map fun recipient => (recipient, a.value)
      else none := by
  unfold amountAt?
  rw [List.getElem?_append_right (Nat.le_refl _), Nat.sub_self, List.getElem?_cons_zero,
    Option.bind_some, List.take_left' rfl]

theorem attributedFrom_cons (latest : Option String) (a : LogAttribute) (rest : List LogAttribute) :
    attributedFrom latest (a :: rest) =
      if a.key = recipientKey then attributedFrom (some a.value) rest
      else if a.key = amountKey then
        (latest.map fun recipient => (recipient, a.value)).toList ++ attributedFrom latest rest
      else attributedFrom latest rest := by
  cases latest with
  | none => rfl
  | some recipient => rfl

/-- The recipient named last is the one that the attributes already read end with. -/
theorem attributedFrom_eq (before as : List LogAttribute) :
    attributedFrom (lastNamed? before) as =
      (List.range as.length).filterMap fun i => amountAt? (before ++ as) (before.length + i) := by
  -- The places are counted in the whole event, so what was read before stays in the statement.
  induction as generalizing before with
  | nil => rfl
  | cons a rest ih =>
    have hr : ((List.range rest.length).map Nat.succ).filterMap
          (fun i => amountAt? (before ++ a :: rest) (before.length + i)) =
        attributedFrom (lastNamed? (before ++ [a])) rest := by
      rw [ih, List.filterMap_map]
      congr
      funext i
      simp only [Function.comp_apply, List.append_assoc, List.singleton_append, List.length_append,
        List.length_singleton, Nat.succ_eq_add_one, Nat.add_assoc, Nat.add_comm 1 i]
    rw [List.length_cons, List.range_succ_eq_map, List.filterMap_cons, Nat.add_zero,
      amountAt?_length, hr, lastNamed?_append_singleton, attributedFrom_cons]
    by_cases h : a.key = recipientKey
    · have hk : a.key ≠ amountKey := by rw [h]; decide
      rw [if_pos h, if_neg hk, if_pos h]
    · rw [if_neg h, if_neg h]
      by_cases hk : a.key = amountKey
      · rw [if_pos hk, if_pos hk]
        cases lastNamed? before with
        | none => rfl
        | some recipient => rfl
      · rw [if_neg hk, if_neg hk]

/-- Each amount of an event belongs to the recipient named last before it in the event. -/
theorem attributedIn_eq (e : LogEvent) :
    attributedIn e = (List.range e.attributes.length).filterMap (amountAt? e.attributes) := by
  have h := attributedFrom_eq [] e.attributes
  simpa [attributedIn, lastNamed?] using h

/-- The amounts of the transfer events, place by place, except those of excluded recipients. -/
def placed (log : MessageLog) (excluded : List String) : List (String × String) :=
  ((log.events.filter (·.kind == transferKind)).flatMap fun e =>
    (List.range e.attributes.length).filterMap (amountAt? e.attributes)).filter
      fun p => !excluded.contains p.1

theorem attributed_eq_placed (log : MessageLog) (excluded : List String) :
    attributed log excluded = placed log excluded := by
  unfold attributed placed MessageLog.eventsOf
  congr
  funext e
  exact attributedIn_eq e

theorem notMem_excluded_of_mem_placed {log : MessageLog} {excluded : List String}
    {p : String × String} (h : p ∈ placed log excluded) : p.1 ∉ excluded := by
  unfold placed at h
  simpa using (List.mem_filter.1 h).2

end ChainIndexer.Settlement
