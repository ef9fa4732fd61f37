import ChainIndexer.Proofs.Message.Heading
import ChainIndexer.Proofs.Transaction.Refusals

/-
  What the events of a transaction say.

  The event of a message is `eventFor?` of its place, its content and its log (`getElem?_events`),
  so that no other message has a say in it. It has the tag of the kind of the message, or says that
  there is none, and it tells of a failure exactly when the message could not be mapped
  (`reports_of_decode`). `decode_outcome` puts this together with what is refused.
-/

namespace ChainIndexer.Transaction

open Outcome Message Text

/-! ## Events of messages -/

/-- The kind for which a message is registered. -/
def registered? (m : Packed) : Option MessageKind :=
  (TypeUrl.route? m.typeUrl).bind MessageKind.ofRoute?

/-- The event of a message, from its place, its content and its log. -/
def eventFor? (pool : String) (log : MessageLog) (index : Nat) (m : Packed) :
    Option TransactionEvent :=
  (classify m.typeUrl m.value ⟨log, pool⟩).toOption.map (eventOf index m.typeUrl)

/-- A message that has no kind, or whose kind cannot read it. -/
def IsUnmapped (ctx : Context) (m : Packed) : Prop :=
  registered? m = none ∨
    ∃ kind fault, registered? m = some kind ∧ map kind m.value ctx = .error fault

/-- What the event of a message says about it. -/
structure Reports (ctx : Context) (index : Nat) (m : Packed) (event : TransactionEvent) :
    Prop where
  id : event.id = index.repr
  unknown : event.kind = "unknown" ↔ registered? m = none
  known : ∀ kind, registered? m = some kind → event.kind = kind.tag
  sub : ∃ sub, event.sub = [sub] ∧ (sub.failure ≠ none ↔ IsUnmapped ctx m)

theorem tag_ne_unknown (kind : MessageKind) : kind.tag ≠ "unknown" := by
  cases kind <;> decide

theorem classify_of_map_ok {m : Packed} {kind : MessageKind} {ctx : Context} {e : Event}
    (h : registered? m = some kind) (hm : map kind m.value ctx = .ok e) :
    classify m.typeUrl m.value ctx = .ok (.event e) := by
  obtain ⟨route, hr, hk⟩ := Option.bind_eq_some_iff.1 h
  simp only [classify, TypeUrl.route, hr, Except.map, hk, hm]

theorem classify_of_map_error {m : Packed} {kind : MessageKind} {ctx : Context} {fault : Fault}
    (h : registered? m = some kind) (hm : map kind m.value ctx = .error fault) :
    classify m.typeUrl m.value ctx = .ok (.broken kind fault) := by
  obtain ⟨route, hr, hk⟩ := Option.bind_eq_some_iff.1 h
  simp only [classify, TypeUrl.route, hr, Except.map, hk, hm]

theorem classify_of_not_registered {m : Packed} {route : Route}
    (hr : TypeUrl.route? m.typeUrl = some route) (h : registered? m = none) (ctx : Context) :
    classify m.typeUrl m.value ctx = .ok (.unknown route) := by
  unfold registered? at h
  rw [hr, Option.bind_some] at h
  simp only [classify, TypeUrl.route, hr, Except.map, h]

theorem reports_of_registered {m : Packed} {kind : MessageKind} (h : registered? m = some kind)
    (ctx : Context) (index : Nat) {routed : Routed}
    (hc : classify m.typeUrl m.value ctx = .ok routed) :
    Reports ctx index m (eventOf index m.typeUrl routed) := by
  have hu : ∀ {k : String}, k = kind.tag → (k = "unknown" ↔ registered? m = none) := by
    intro k hk
    rw [hk, h]
    simp [tag_ne_unknown kind]
  have hk : ∀ {k : String}, k = kind.tag → ∀ kind', registered? m = some kind' → k = kind'.tag := by
    intro k hk kind' h'
    rw [hk, Option.some.inj (h.symm.trans h')]
  cases hm : map kind m.value ctx with
  | ok e =>
    rw [classify_of_map_ok h hm] at hc
    obtain rfl := Except.ok.inj hc
    have hh := heading_map hm
    simp only [Event.heading, Prod.mk.injEq] at hh
    have ht : (eventOf index m.typeUrl (.event e)).kind = kind.tag := by
      simp only [eventOf, Routed.kind, Event.primaryKind, hh.1, List.headD_cons]
    refine ⟨rfl, hu ht, hk ht, e, rfl, ?_⟩
    simp only [hh.2.2, ne_eq, not_true_eq_false, false_iff]
    rintro (hn | ⟨kind', fault, h', hf⟩)
    · rw [h] at hn
      cases hn
    · obtain rfl := Option.some.inj (h.symm.trans h')
      rw [hm] at hf
      cases hf
  | error fault =>
    rw [classify_of_map_error h hm] at hc
    obtain rfl := Except.ok.inj hc
    refine ⟨rfl, hu rfl, hk rfl, _, rfl, ?_⟩
    simp only [Event.failed, ne_eq, reduceCtorEq, not_false_eq_true, true_iff]
    exact .inr ⟨kind, fault, h, hm⟩

theorem reports_of_not_registered {m : Packed} (h : registered? m = none) (ctx : Context)
    (index : Nat) {routed : Routed} (hc : classify m.typeUrl m.value ctx = .ok routed) :
    Reports ctx index m (eventOf index m.typeUrl routed) := by
  cases hr : TypeUrl.route? m.typeUrl with
  | none =>
    simp only [classify, TypeUrl.route, hr, Except.map] at hc
    cases hc
  | some route =>
    rw [classify_of_not_registered hr h] at hc
    obtain rfl := Except.ok.inj hc
    refine ⟨rfl, ?_, ?_, _, rfl, ?_⟩
    · exact ⟨fun _ => h, fun _ => rfl⟩
    · intro kind hk
      rw [h] at hk
      cases hk
    · simp only [Event.failed, ne_eq, reduceCtorEq, not_false_eq_true, true_iff]
      exact .inl h

/-- The event of a message says what became of it. -/
theorem reports_of_classify {m : Packed} {ctx : Context} {routed : Routed} (index : Nat)
    (hc : classify m.typeUrl m.value ctx = .ok routed) :
    Reports ctx index m (eventOf index m.typeUrl routed) := by
  cases h : registered? m with
  | none => exact reports_of_not_registered h ctx index hc
  | some kind => exact reports_of_registered h ctx index hc

theorem eventFor?_of_classify {pool : String} {log : MessageLog} {m : Packed} {routed : Routed}
    (index : Nat) (hc : classify m.typeUrl m.value ⟨log, pool⟩ = .ok routed) :
    eventFor? pool log index m = some (eventOf index m.typeUrl routed) := by
  unfold eventFor?
  rw [hc]
  rfl

theorem reports_of_eventFor? {pool : String} {log : MessageLog} {index : Nat} {m : Packed}
    {event : TransactionEvent} (h : eventFor? pool log index m = some event) :
    Reports ⟨log, pool⟩ index m event := by
  unfold eventFor? at h
  cases hc : classify m.typeUrl m.value ⟨log, pool⟩ with
  | error e =>
    rw [hc] at h
    cases h
  | ok routed =>
    rw [hc] at h
    obtain rfl := Option.some.inj h
    exact reports_of_classify index hc

/-- Each message has its event, which no other message has a say in. -/
theorem getElem?_routeMessages {pool : String} {logs : List MessageLog} {index : Nat}
    {ms : List Packed} {s : DecodeStats} {events : List TransactionEvent}
    (h : (routeMessages pool logs index ms s).1 = .ok events) (i : Nat) :
    events[i]? = ms[i]?.bind fun m =>
      eventFor? pool (logOf logs (index + i)) (index + i) m := by
  induction ms generalizing index s events i with
  | nil =>
    obtain rfl := Except.ok.inj h
    rfl
  | cons m ms ih =>
    cases hc : classify m.typeUrl m.value ⟨logOf logs index, pool⟩ with
    | error e =>
      rw [routeMessages_cons_of_error hc] at h
      cases h
    | ok routed =>
      rw [routeMessages_cons_of_ok hc] at h
      obtain ⟨rest, hr, rfl⟩ := map_eq_ok.1 h
      cases i with
      | zero =>
        simp only [List.getElem?_cons_zero, Option.bind_some]
        exact (eventFor?_of_classify index hc).symm
      | succ i =>
        simp only [List.getElem?_cons_succ]
        rw [ih hr i, Nat.add_right_comm index 1 i, Nat.add_assoc]

theorem length_routeMessages {pool : String} {logs : List MessageLog} {index : Nat}
    {ms : List Packed} {s : DecodeStats} {events : List TransactionEvent}
    (h : (routeMessages pool logs index ms s).1 = .ok events) : events.length = ms.length := by
  induction ms generalizing index s events with
  | nil =>
    obtain rfl := Except.ok.inj h
    rfl
  | cons m ms ih =>
    cases hc : classify m.typeUrl m.value ⟨logOf logs index, pool⟩ with
    | error e =>
      rw [routeMessages_cons_of_error hc] at h
      cases h
    | ok routed =>
      rw [routeMessages_cons_of_ok hc] at h
      obtain ⟨rest, hr, rfl⟩ := map_eq_ok.1 h
      rw [List.length_cons, List.length_cons, ih hr]

/-! ## Events of transactions -/

section Events

variable {pool : String} {e : Envelope} {r : Receipt} {block : Block} {s : DecodeStats}
  {t : Transaction}

theorem events_of_decode (h : (decode pool e r block s).1 = .ok t) :
    ∃ events, (routeMessages pool r.messageLogs 0 e.messages s).1 = .ok events ∧
      t.events = events ++ failureEvents r e.messages.length := by
  cases hh : header e r block with
  | error err =>
    rw [decode_of_header_error hh] at h
    cases h
  | ok t₀ =>
    rw [decode_of_header_ok hh] at h
    obtain ⟨events, hr, rfl⟩ := map_eq_ok.1 h
    refine ⟨events, hr, ?_⟩
    rw [← length_routeMessages hr]

theorem length_failureEvents (r : Receipt) (count : Nat) :
    (failureEvents r count).length = if 0 < r.code then 1 else 0 := by
  unfold failureEvents
  by_cases hc : r.code = 0
  · have hn : ¬0 < r.code := by omega
    rw [if_pos hc, if_neg hn]
    rfl
  · have hp : 0 < r.code := by omega
    rw [if_neg hc, if_pos hp]
    rfl

theorem length_events (h : (decode pool e r block s).1 = .ok t) :
    t.events.length = e.messages.length + if 0 < r.code then 1 else 0 := by
  obtain ⟨events, hr, ht⟩ := events_of_decode h
  rw [ht, List.length_append, length_routeMessages hr, length_failureEvents]

/-- The event of a message depends on its place, its content and its log. -/
theorem getElem?_events (h : (decode pool e r block s).1 = .ok t) {i : Nat}
    (hi : i < e.messages.length) :
    t.events[i]? = e.messages[i]?.bind fun m => eventFor? pool (logOf r.messageLogs i) i m := by
  obtain ⟨events, hr, ht⟩ := events_of_decode h
  have hl := length_routeMessages hr
  rw [ht, List.getElem?_append_left (by omega), getElem?_routeMessages hr, Nat.zero_add]

theorem reports_of_decode (h : (decode pool e r block s).1 = .ok t) {i : Nat} {m : Packed}
    (hm : e.messages[i]? = some m) :
    ∃ event, t.events[i]? = some event ∧
      eventFor? pool (logOf r.messageLogs i) i m = some event ∧
      Reports ⟨logOf r.messageLogs i, pool⟩ i m event := by
  obtain ⟨hi, _⟩ := List.getElem?_eq_some_iff.1 hm
  have hl := length_events h
  have he := getElem?_events h hi
  rw [hm, Option.bind_some] at he
  have hlt : i < t.events.length := by omega
  have hs := List.getElem?_eq_getElem hlt
  rw [he] at hs
  exact ⟨_, he.trans hs, hs, reports_of_eventFor? hs⟩

/-- The event of a transaction that failed stands behind those of its messages. -/
theorem getElem?_events_length (h : (decode pool e r block s).1 = .ok t) (hc : 0 < r.code) :
    t.events[e.messages.length]? = some ⟨e.messages.length.repr, "error",
      [.failed "error" r.codespace (if r.rawLog = "" then r.info else r.rawLog)]⟩ := by
  obtain ⟨events, hr, ht⟩ := events_of_decode h
  have hl := length_routeMessages hr
  rw [ht, List.getElem?_append_right (by omega), hl, Nat.sub_self]
  unfold failureEvents
  rw [if_neg (by omega)]
  rfl

/-- Another message in the place of one leaves all other messages their events. -/
theorem events_of_replaced (h : (decode pool e r block s).1 = .ok t) {e' : Envelope} {j : Nat}
    {m' : Packed} (hf : e'.feeCoins = e.feeCoins) (hm : e'.messages = e.messages.set j m')
    (hu : ∃ route, TypeUrl.route? m'.typeUrl = some route) (s' : DecodeStats) :
    ∃ t', (decode pool e' r block s').1 = .ok t' ∧
      ∀ i < e.messages.length, i ≠ j → t'.events[i]? = t.events[i]? := by
  have ha : Acceptable e r := by
    rw [← firstRefusal?_eq_none_iff, ← fault?_decode pool e r block s]
    exact exists_ok_iff.1 ⟨t, h⟩
  have ha' : Acceptable e' r := by
    obtain ⟨hh, hw, hg, hc, hr⟩ := ha
    refine ⟨hh, hw, hg, ?_, ?_⟩
    · rw [hf]
      exact hc
    · intro m hx
      rw [hm] at hx
      rcases List.mem_or_eq_of_mem_set hx with hx | rfl
      · exact hr m hx
      · exact hu
  obtain ⟨t', ht'⟩ : ∃ t', (decode pool e' r block s').1 = .ok t' := by
    rw [exists_ok_iff, fault?_decode, firstRefusal?_eq_none_iff]
    exact ha'
  refine ⟨t', ht', ?_⟩
  intro i hi hj
  have hl : i < e'.messages.length := by
    rw [hm, List.length_set]
    exact hi
  rw [getElem?_events ht' hl, getElem?_events h hi, hm, List.getElem?_set_ne (Ne.symm hj)]

end Events

/-- A transaction is decoded exactly if its height and its gas are not negative, every coin of its
fee is an amount and every message has a type URL; else it is refused for the first of these that
fails. It then has one event for each message, in order, which reports what became of the message
and depends on nothing but the place, the content and the log of the message; and, if it failed, one
more event that says so. -/
theorem decode_outcome (pool : String) (e : Envelope) (r : Receipt) (block : Block)
    (s : DecodeStats) :
    ((∃ t, (decode pool e r block s).1 = .ok t) ↔ Acceptable e r) ∧
      (∀ err, (decode pool e r block s).1 = .error err ↔ firstRefusal? e r = some err) ∧
      ∀ t, (decode pool e r block s).1 = .ok t →
        t.events.length = e.messages.length + (if 0 < r.code then 1 else 0) ∧
        (∀ i m, e.messages[i]? = some m → ∃ event, t.events[i]? = some event ∧
          eventFor? pool (logOf r.messageLogs i) i m = some event ∧
          Reports ⟨logOf r.messageLogs i, pool⟩ i m event) ∧
        (0 < r.code → t.events[e.messages.length]? = some ⟨e.messages.length.repr, "error",
          [.failed "error" r.codespace (if r.rawLog = "" then r.info else r.rawLog)]⟩) ∧
        ∀ (e' : Envelope) (j : Nat) (m' : Packed) (s' : DecodeStats),
          e'.feeCoins = e.feeCoins → e'.messages = e.messages.set j m' →
          (∃ route, TypeUrl.route? m'.typeUrl = some route) →
          ∃ t', (decode pool e' r block s').1 = .ok t' ∧
            ∀ i < e.messages.length, i ≠ j → t'.events[i]? = t.events[i]? := by
  refine ⟨?_, ?_, ?_⟩
  · rw [exists_ok_iff, fault?_decode, firstRefusal?_eq_none_iff]
  · intro err
    rw [eq_error_iff, fault?_decode]
  · intro t h
    refine ⟨length_events h, fun i m hm => reports_of_decode h hm, getElem?_events_length h, ?_⟩
    intro e' j m' s' hf hm hu
    exact events_of_replaced h hf hm hu s'

end ChainIndexer.Transaction
