import ChainIndexer.Log
import ChainIndexer.Proofs.Text.Numeral

/-
  Logs and the flat events that stand for them.

  `Flattened` says how a node that fills in no logs emits their events: each event carries the index
  of its log in one more attribute, the events of a log keep their order, those of different logs
  come in any order, and events that name no message may stand anywhere between them. `eventsAt`
  looks up the events of a message; flat events give every message the same events as the logs that
  they stand for (`eventsAt_ofFlat_of_flattened`).
-/

namespace ChainIndexer.MessageLog

/-! ## Flat forms -/

/-- The flat form of an event: one more attribute, in any place, names its message. -/
def Tagged (index : Nat) (e f : LogEvent) : Prop :=
  f.kind = e.kind ∧ ∃ before after, e.attributes = before ++ after ∧
    f.attributes = before ++ ⟨indexKey, index.repr⟩ :: after

/-- Flat events that stand for logs. -/
inductive Flattened : List MessageLog → List LogEvent → Prop
  /-- All events have been emitted. -/
  | done {logs : List MessageLog} (spent : ∀ log ∈ logs, log.events = []) : Flattened logs []
  /-- Some log emits its next event. -/
  | next {logs : List MessageLog} {k : Nat} {log : MessageLog} {e f : LogEvent}
      {rest flat : List LogEvent} (chosen : logs[k]? = some log) (first : log.events = e :: rest)
      (tagged : Tagged log.index e f)
      (more : Flattened (logs.set k { log with events := rest }) flat) : Flattened logs (f :: flat)
  /-- An event that names no message. -/
  | other {logs : List MessageLog} {f : LogEvent} {flat : List LogEvent}
      (unnamed : flatIndex? f = none) (more : Flattened logs flat) : Flattened logs (f :: flat)

/-- No attribute of an event of the logs names a message. -/
def Unnamed (logs : List MessageLog) : Prop :=
  ∀ log ∈ logs, ∀ e ∈ log.events, ∀ a ∈ e.attributes, a.key ≠ indexKey

theorem filter_key_eq_self {as : List LogAttribute} (h : ∀ a ∈ as, a.key ≠ indexKey) :
    as.filter (·.key != indexKey) = as := by
  rw [List.filter_eq_self]
  intro a ha
  exact bne_iff_ne.2 (h a ha)

theorem find?_key_eq_none {as : List LogAttribute} (h : ∀ a ∈ as, a.key ≠ indexKey) :
    as.find? (·.key == indexKey) = none := by
  rw [List.find?_eq_none]
  intro a ha
  rw [beq_iff_eq]
  exact h a ha

section Tagged

variable {index : Nat} {e f : LogEvent}

theorem flatIndex?_of_tagged (small : index ≤ Text.maxWord32)
    (unnamed : ∀ a ∈ e.attributes, a.key ≠ indexKey) (h : Tagged index e f) :
    flatIndex? f = some index := by
  obtain ⟨_, before, after, he, hf⟩ := h
  have hb : ∀ a ∈ before, a.key ≠ indexKey := fun a ha =>
    unnamed a (he ▸ List.mem_append_left after ha)
  have hr : Text.readWord Text.maxWord32 index.repr.toList = .ok index := Text.readWord_repr small
  unfold flatIndex?
  rw [hf, List.find?_append, find?_key_eq_none hb, Option.none_or, List.find?_cons_of_pos (by simp),
    Option.bind_some, hr]
  rfl

theorem stripIndex_of_tagged (unnamed : ∀ a ∈ e.attributes, a.key ≠ indexKey)
    (h : Tagged index e f) : stripIndex f = e := by
  obtain ⟨hk, before, after, he, hf⟩ := h
  have ha : f.attributes.filter (·.key != indexKey) = e.attributes := by
    rw [hf, List.filter_append, List.filter_cons_of_neg (by simp), ← List.filter_append, ← he,
      filter_key_eq_self unnamed]
  cases e
  unfold stripIndex
  rw [ha, hk]

end Tagged

/-! ## Events of a message -/

/-- The events of the first log that declares an index. -/
def eventsAt (logs : List MessageLog) (index : Nat) : List LogEvent :=
  match declared? logs index with
  | some log => log.events
  | none => []

/-- No two logs declare the same index. -/
def Distinct (logs : List MessageLog) : Prop :=
  (logs.map (·.index)).Nodup

variable {logs : List MessageLog} {log : MessageLog} {index : Nat}

theorem declared?_cons (log : MessageLog) (rest : List MessageLog) (index : Nat) :
    declared? (log :: rest) index =
      if log.index = index then some log else declared? rest index := by
  unfold declared?
  by_cases h : log.index = index
  · rw [if_pos h]
    exact List.find?_cons_of_pos (by simpa using h)
  · rw [if_neg h]
    exact List.find?_cons_of_neg (by simpa using h)

theorem eventsAt_cons (log : MessageLog) (rest : List MessageLog) (index : Nat) :
    eventsAt (log :: rest) index =
      if log.index = index then log.events else eventsAt rest index := by
  unfold eventsAt
  rw [declared?_cons]
  by_cases h : log.index = index
  · rw [if_pos h, if_pos h]
  · rw [if_neg h, if_neg h]

theorem declared?_of_mem (hd : Distinct logs) (h : log ∈ logs) :
    declared? logs log.index = some log := by
  induction logs with
  | nil => cases h
  | cons first rest ih =>
    obtain ⟨hn, hr⟩ := List.nodup_cons.1 hd
    rw [declared?_cons]
    rcases List.mem_cons.1 h with rfl | h
    · exact if_pos rfl
    · have hi : first.index ≠ log.index := fun he => hn (List.mem_map.2 ⟨log, h, he.symm⟩)
      rw [if_neg hi]
      exact ih hr h

/-- In distinct logs the place of a log makes no difference. -/
theorem find?_eq_declared? (hd : Distinct logs) (index : Nat) :
    find? logs index = declared? logs index := by
  unfold find?
  cases hl : logs[index]? with
  | none => rfl
  | some log =>
    by_cases hi : log.index = index
    · subst hi
      exact (if_pos rfl).trans (declared?_of_mem hd (List.mem_of_getElem? hl)).symm
    · exact if_neg hi

theorem eventsAt_of_mem (hd : Distinct logs) (h : log ∈ logs) :
    eventsAt logs log.index = log.events := by
  unfold eventsAt
  rw [declared?_of_mem hd h]

/-! ## Emitting an event -/

variable {k : Nat} {rest : List LogEvent}

theorem map_index_set (h : logs[k]? = some log) :
    (logs.set k { log with events := rest }).map (·.index) = logs.map (·.index) := by
  obtain ⟨hk, rfl⟩ := List.getElem?_eq_some_iff.1 h
  have hm : k < (logs.map (·.index)).length := by
    rw [List.length_map]
    exact hk
  have hs := List.set_getElem_self hm
  rw [List.getElem_map] at hs
  rw [List.map_set]
  exact hs

theorem eventsAt_set_of_ne (h : logs[k]? = some log) (hi : log.index ≠ index) :
    eventsAt (logs.set k { log with events := rest }) index = eventsAt logs index := by
  induction logs generalizing k with
  | nil => rfl
  | cons first others ih =>
    cases k with
    | zero =>
      obtain rfl := Option.some.inj h
      rw [List.set_cons_zero, eventsAt_cons, eventsAt_cons, if_neg hi, if_neg hi]
    | succ k =>
      rw [List.set_cons_succ, eventsAt_cons, eventsAt_cons, ih h]

theorem distinct_set (hd : Distinct logs) (h : logs[k]? = some log) :
    Distinct (logs.set k { log with events := rest }) := by
  unfold Distinct
  rw [map_index_set h]
  exact hd

theorem eventsAt_set_self (hd : Distinct logs) (h : logs[k]? = some log) :
    eventsAt (logs.set k { log with events := rest }) log.index = rest := by
  obtain ⟨hk, _⟩ := List.getElem?_eq_some_iff.1 h
  exact eventsAt_of_mem (distinct_set hd h) (List.mem_set hk { log with events := rest })

/-! ## Collecting flat events -/

theorem eventsAt_addEvent (index j : Nat) (e : LogEvent) (logs : List MessageLog) :
    eventsAt (addEvent index e logs) j =
      eventsAt logs j ++ if index = j then [e] else [] := by
  induction logs with
  | nil =>
    rw [addEvent, eventsAt_cons]
    rfl
  | cons log rest ih =>
    unfold addEvent
    by_cases hi : log.index = index
    · subst hi
      rw [if_pos rfl, eventsAt_cons, eventsAt_cons]
      by_cases hj : log.index = j
      · rw [if_pos hj, if_pos hj, if_pos hj]
      · rw [if_neg hj, if_neg hj, if_neg hj, List.append_nil]
    · rw [if_neg hi, eventsAt_cons, eventsAt_cons, ih]
      by_cases hj : log.index = j
      · have hn : index ≠ j := fun h => hi (hj.trans h.symm)
        rw [if_pos hj, if_pos hj, if_neg hn, List.append_nil]
      · rw [if_neg hj, if_neg hj]

/-- What a flat event adds to the events of a message. -/
def part (index : Nat) (f : LogEvent) : List LogEvent :=
  if flatIndex? f = some index then [stripIndex f] else []

theorem eventsAt_addFlat (logs : List MessageLog) (f : LogEvent) (index : Nat) :
    eventsAt (addFlat logs f) index = eventsAt logs index ++ part index f := by
  unfold addFlat part
  cases hf : flatIndex? f with
  | none => simp
  | some i => simp [eventsAt_addEvent]

theorem eventsAt_ofFlat (flat : List LogEvent) (index : Nat) :
    eventsAt (ofFlat flat) index = flat.flatMap (part index) := by
  have h : ∀ logs : List MessageLog, eventsAt (flat.foldl addFlat logs) index =
      eventsAt logs index ++ flat.flatMap (part index) := by
    induction flat with
    | nil => intro logs; simp
    | cons f flat ih =>
      intro logs
      rw [List.foldl_cons, ih, eventsAt_addFlat, List.flatMap_cons, List.append_assoc]
  exact h []

theorem map_index_addEvent (index : Nat) (e : LogEvent) (logs : List MessageLog) :
    (index ∈ logs.map (·.index) ∧ (addEvent index e logs).map (·.index) = logs.map (·.index)) ∨
      (index ∉ logs.map (·.index) ∧
        (addEvent index e logs).map (·.index) = logs.map (·.index) ++ [index]) := by
  induction logs with
  | nil => exact .inr ⟨List.not_mem_nil, rfl⟩
  | cons log rest ih =>
    unfold addEvent
    by_cases hi : log.index = index
    · rw [if_pos hi]
      exact .inl ⟨List.mem_cons.2 (.inl hi.symm), rfl⟩
    · rw [if_neg hi]
      rcases ih with ⟨hn, hm⟩ | ⟨hn, hm⟩
      · exact .inl ⟨List.mem_cons_of_mem _ hn, congrArg (log.index :: ·) hm⟩
      · refine .inr ⟨?_, congrArg (log.index :: ·) hm⟩
        rw [List.map_cons, List.mem_cons, not_or]
        exact ⟨Ne.symm hi, hn⟩

theorem distinct_addEvent (hd : Distinct logs) (index : Nat) (e : LogEvent) :
    Distinct (addEvent index e logs) := by
  unfold Distinct
  rcases map_index_addEvent index e logs with ⟨-, hm⟩ | ⟨hn, hm⟩
  · rw [hm]
    exact hd
  · rw [hm, List.nodup_append]
    refine ⟨hd, List.pairwise_singleton .., ?_⟩
    intro i hi j hj he
    rw [List.mem_singleton.1 hj] at he
    exact hn (he ▸ hi)

theorem distinct_ofFlat (flat : List LogEvent) : Distinct (ofFlat flat) := by
  have h : ∀ logs : List MessageLog, Distinct logs → Distinct (flat.foldl addFlat logs) := by
    induction flat with
    | nil => exact fun _ hd => hd
    | cons f flat ih =>
      intro logs hd
      apply ih
      unfold addFlat
      cases flatIndex? f with
      | none => exact hd
      | some i => exact distinct_addEvent hd i _
  exact h [] List.nodup_nil

/-! ## Flattened logs -/

/-- Every index of the logs is a number of 32 bits. -/
def Indexed (logs : List MessageLog) : Prop :=
  ∀ log ∈ logs, log.index ≤ Text.maxWord32

theorem eventsAt_spent (h : ∀ log ∈ logs, log.events = []) (index : Nat) :
    eventsAt logs index = [] := by
  induction logs with
  | nil => rfl
  | cons log rest ih =>
    rw [eventsAt_cons, h log List.mem_cons_self,
      ih fun l hl => h l (List.mem_cons_of_mem log hl)]
    split
    · rfl
    · rfl

theorem indexed_set (hs : Indexed logs) (h : logs[k]? = some log) :
    Indexed (logs.set k { log with events := rest }) := by
  intro l hl
  rcases List.mem_or_eq_of_mem_set hl with hl | rfl
  · exact hs l hl
  · exact hs log (List.mem_of_getElem? h)

theorem unnamed_set {e : LogEvent} (hu : Unnamed logs) (h : logs[k]? = some log)
    (he : log.events = e :: rest) : Unnamed (logs.set k { log with events := rest }) := by
  intro l hl
  rcases List.mem_or_eq_of_mem_set hl with hl | rfl
  · exact hu l hl
  · intro e' he'
    exact hu log (List.mem_of_getElem? h) e' (he ▸ List.mem_cons_of_mem e he')

/-- Flat events give every message the events that its log gives it. -/
theorem eventsAt_ofFlat_of_flattened {flat : List LogEvent} (hf : Flattened logs flat)
    (hd : Distinct logs) (hs : Indexed logs) (hu : Unnamed logs) (index : Nat) :
    eventsAt (ofFlat flat) index = eventsAt logs index := by
  rw [eventsAt_ofFlat]
  induction hf with
  | done spent => exact (eventsAt_spent spent index).symm
  | @next logs k log e f rest flat chosen first tagged more ih =>
    have hm := List.mem_of_getElem? chosen
    have he : ∀ a ∈ e.attributes, a.key ≠ indexKey :=
      hu log hm e (first ▸ List.mem_cons_self)
    rw [List.flatMap_cons, ih (distinct_set hd chosen) (indexed_set hs chosen)
      (unnamed_set hu chosen first)]
    unfold part
    rw [flatIndex?_of_tagged (hs log hm) he tagged, stripIndex_of_tagged he tagged]
    -- Only the message of the chosen log has one event less to come.
    by_cases hi : log.index = index
    · subst hi
      rw [if_pos rfl, eventsAt_set_self hd chosen, eventsAt_of_mem hd hm, first]
      rfl
    · rw [if_neg (by simpa using hi), eventsAt_set_of_ne chosen hi]
      rfl
  | other unnamed more ih =>
    rw [List.flatMap_cons, ih hd hs hu]
    unfold part
    rw [unnamed, if_neg nofun]
    rfl

end ChainIndexer.MessageLog
