import Mathlib.Data.List.Induction
import ChainIndexer.Proofs.Log.Flattening
import ChainIndexer.Transaction

/-
  Flat events, put together by message.

  The logs of flat events stand in the order in which their messages are first named
  (`map_index_ofFlat`), and each holds the events that name its message, in their order and without
  what names it (`ofFlat_eq`). An event that names no message is in no log, and every other event is
  in one (`perm_ofFlat`). Each of these is kept by every event that is added.
-/

namespace ChainIndexer

namespace MessageLog

variable {flat : List LogEvent} {logs : List MessageLog} {log : MessageLog} {f : LogEvent}
  {index : Nat}

/-! ## What a flat event names -/

/-- The first attribute of a flat event under the key of an index is the number of a message, in 32
bits. -/
def Names (f : LogEvent) (index : Nat) : Prop :=
  ∃ before value after, f.attributes = before ++ ⟨indexKey, value⟩ :: after ∧
    (∀ a ∈ before, a.key ≠ indexKey) ∧ Text.IsWord Text.maxWord32 value.toList index

theorem flatIndex?_eq_some_iff : flatIndex? f = some index ↔ Names f index := by
  unfold flatIndex?
  rw [Option.bind_eq_some_iff]
  constructor
  · rintro ⟨⟨key, value⟩, hf, hv⟩
    obtain ⟨hk, before, after, ha, hb⟩ := List.find?_eq_some_iff_append.1 hf
    obtain rfl : key = indexKey := by simpa using hk
    refine ⟨before, value, after, ha, fun a h => by simpa using hb a h, ?_⟩
    rw [← Text.readWord_eq_ok_iff]
    cases hr : Text.readWord Text.maxWord32 value.toList with
    | error fault => simp [hr, Except.toOption] at hv
    | ok n => simpa [hr, Except.toOption] using hv
  · rintro ⟨before, value, after, ha, hb, hv⟩
    refine ⟨⟨indexKey, value⟩, ?_, ?_⟩
    · rw [ha, List.find?_append, find?_key_eq_none hb, Option.none_or,
        List.find?_cons_of_pos (by simp)]
    · rw [Text.readWord_eq_ok_iff.2 hv]
      rfl

instance (f : LogEvent) (index : Nat) : Decidable (Names f index) :=
  decidable_of_iff _ flatIndex?_eq_some_iff

/-- The flat events that name a message, without what names it. -/
def eventsNaming (flat : List LogEvent) (index : Nat) : List LogEvent :=
  (flat.filter fun f => Names f index).map fun f =>
    ⟨f.kind, f.attributes.filter fun a => a.key != indexKey⟩

theorem flatMap_part (flat : List LogEvent) (index : Nat) :
    flat.flatMap (part index) = eventsNaming flat index := by
  unfold eventsNaming
  induction flat with
  | nil => rfl
  | cons f flat ih =>
    rw [List.flatMap_cons, ih, part, List.filter_cons]
    by_cases h : Names f index
    · rw [if_pos (flatIndex?_eq_some_iff.2 h), if_pos (by simpa using h)]
      rfl
    · rw [if_neg (mt flatIndex?_eq_some_iff.1 h), if_neg (by simpa using h)]
      rfl

/-! ## Adding an event -/

theorem text_addEvent {e : LogEvent} (h : ∀ log ∈ logs, log.text = "") :
    ∀ log ∈ addEvent index e logs, log.text = "" := by
  induction logs with
  | nil => simp [addEvent]
  | cons first rest ih =>
    obtain ⟨hf, hr⟩ := List.forall_mem_cons.1 h
    unfold addEvent
    split
    · exact List.forall_mem_cons.2 ⟨hf, hr⟩
    · exact List.forall_mem_cons.2 ⟨hf, ih hr⟩

theorem perm_addEvent (index : Nat) (e : LogEvent) (logs : List MessageLog) :
    ((addEvent index e logs).flatMap (·.events)).Perm (logs.flatMap (·.events) ++ [e]) := by
  induction logs with
  | nil => exact .refl _
  | cons first rest ih =>
    unfold addEvent
    split
    · simp only [List.flatMap_cons, List.append_assoc]
      exact List.perm_append_comm.append_left first.events
    · simp only [List.flatMap_cons, List.append_assoc]
      exact ih.append_left first.events

/-! ## Logs of flat events -/

theorem ofFlat_append_singleton (flat : List LogEvent) (f : LogEvent) :
    ofFlat (flat ++ [f]) = addFlat (ofFlat flat) f :=
  List.foldl_append ..

theorem text_ofFlat (flat : List LogEvent) : ∀ log ∈ ofFlat flat, log.text = "" := by
  induction flat using List.reverseRecOn with
  | nil => nofun
  | append_singleton flat f ih =>
    rw [ofFlat_append_singleton, addFlat]
    split
    · exact text_addEvent ih
    · exact ih

/-- The logs stand in the order in which their messages are first named. -/
theorem map_index_ofFlat (flat : List LogEvent) :
    (ofFlat flat).map (·.index) = (flat.filterMap flatIndex?).eraseDups := by
  induction flat using List.reverseRecOn with
  | nil => rfl
  | append_singleton flat f ih =>
    rw [ofFlat_append_singleton, addFlat, List.filterMap_append, List.eraseDups_append, ← ih]
    cases hf : flatIndex? f with
    | none => simp [hf, List.removeAll]
    | some index =>
      have hm : index ∈ flat.filterMap flatIndex? ↔ index ∈ (ofFlat flat).map (·.index) := by
        rw [ih, List.mem_eraseDups]
      rcases map_index_addEvent index (stripIndex f) (ofFlat flat) with ⟨hi, ha⟩ | ⟨hi, ha⟩
      · simp [-List.mem_filterMap, hf, ha, List.removeAll, hm.2 hi]
      · simp [-List.mem_filterMap, hf, ha, List.removeAll, List.eraseDups_cons, mt hm.1 hi]

/-- Each log is that of one message that is named, and holds the events that name it. -/
theorem ofFlat_eq (flat : List LogEvent) :
    ofFlat flat = (flat.filterMap flatIndex?).eraseDups.map
      fun index => ⟨index, "", eventsNaming flat index⟩ := by
  rw [← map_index_ofFlat, List.map_map]
  refine (List.map_id _).symm.trans (List.map_congr_left fun log hl => ?_)
  have he : log.events = eventsNaming flat log.index := by
    rw [← flatMap_part, ← eventsAt_ofFlat, eventsAt_of_mem (distinct_ofFlat flat) hl]
  rw [Function.comp_apply, ← he, ← text_ofFlat flat log hl]
  rfl

/-- No event that names a message is lost, and none is in two logs. -/
theorem perm_ofFlat (flat : List LogEvent) :
    ((ofFlat flat).flatMap (·.events)).Perm
      ((flat.filter fun f => (flatIndex? f).isSome).map stripIndex) := by
  induction flat using List.reverseRecOn with
  | nil => exact .refl _
  | append_singleton flat f ih =>
    rw [ofFlat_append_singleton, addFlat, List.filter_append, List.map_append]
    cases hf : flatIndex? f with
    | none => simpa [hf] using ih
    | some index =>
      have ha := (perm_addEvent index (stripIndex f) (ofFlat flat)).trans (ih.append_right _)
      simpa [hf] using ha

theorem eventsNaming_ne_nil (h : index ∈ flat.filterMap flatIndex?) :
    eventsNaming flat index ≠ [] := by
  obtain ⟨f, hf, hi⟩ := List.mem_filterMap.1 h
  have hm : f ∈ flat.filter fun f => Names f index :=
    List.mem_filter.2 ⟨hf, by simpa using flatIndex?_eq_some_iff.1 hi⟩
  exact mt List.map_eq_nil_iff.1 (List.ne_nil_of_mem hm)

end MessageLog

open MessageLog

/-- Where a node fills in no logs, there is one log for each message that a flat event names, in the
order in which they are first named. It holds the events whose first index is that of the message,
in their order, without any index and with all other attributes as they were. Events that name no
message are nowhere, and all others are kept. -/
theorem Receipt.messageLogs_of_flat (r : Receipt) :
    let logs := messageLogs { r with logs := [] }
    (logs.map (·.index)).Nodup ∧
    logs = (r.events.filterMap flatIndex?).eraseDups.map
      (fun index => ⟨index, "", eventsNaming r.events index⟩) ∧
    (∀ log ∈ logs, log.events ≠ []) ∧
    (logs.flatMap (·.events)).Perm
      ((r.events.filter fun f => (flatIndex? f).isSome).map stripIndex) ∧
    (logs.flatMap (·.events)).length = (r.events.filter fun f => (flatIndex? f).isSome).length ∧
    ∀ f index, flatIndex? f = some index ↔ Names f index := by
  intro logs
  have hc : logs = _ := ofFlat_eq r.events
  have hp : (logs.flatMap (·.events)).Perm _ := perm_ofFlat r.events
  refine ⟨distinct_ofFlat r.events, hc, fun log hl => ?_, hp, ?_,
    fun _ _ => flatIndex?_eq_some_iff⟩
  · rw [hc] at hl
    obtain ⟨index, hi, rfl⟩ := List.mem_map.1 hl
    exact eventsNaming_ne_nil (List.mem_eraseDups.1 hi)
  · rw [hp.length_eq, List.length_map]

end ChainIndexer
