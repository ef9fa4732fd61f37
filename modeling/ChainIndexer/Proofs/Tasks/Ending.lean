import ChainIndexer.Chain.Local
import ChainIndexer.Proofs.Tasks.Dispatching

/-
  How the stream of a task ends.

  Before its stage is closed a stream sends nothing final, and with the end it is closed
  (`closes_step`). Only a handler whose arithmetic runs over closes it without; so every stream
  that does not come from such a handler ends, for a consumer of any speed and wherever the timer
  strikes (`ends_of_reachable`). The arithmetic runs over in one place, the successor of a height
  that is the last one of 64 bits, and then the stream has no response at all
  (`dispatch_ends_iff`).
-/

namespace ChainIndexer.Tasks

/-- The last response ends the stream, and no other is final. -/
def Ends (rs : List TaskResponse) : Prop :=
  ∃ before last, rs = before ++ [last] ∧ last.kind = "END" ∧ last.isFinal = true ∧
    ∀ r ∈ before, r.isFinal = false

theorem not_ends_nil : ¬Ends [] := by
  rintro ⟨before, last, h, _⟩
  exact List.append_ne_nil_of_right_ne_nil before (List.cons_ne_nil last []) h.symm

/-! ## Streams -/

namespace Stream

variable {s t s₀ : Stream} {a : Action}

/-- A stream that is closed has sent the end, and one that is not has sent nothing final. -/
structure Closes (s : Stream) : Prop where
  opened : s.stage ≠ .closed → ∀ r ∈ s.sent, r.isFinal = false
  closed : s.stage = .closed → Ends s.sent

theorem closes_of_opened (ho : s.stage ≠ .closed) (h : ∀ r ∈ s.sent, r.isFinal = false) :
    Closes s :=
  ⟨fun _ => h, fun hc => absurd hc ho⟩

theorem closes_start (id : String) (c : Course) : Closes (start id c) :=
  closes_of_opened nofun nofun

theorem closes_refused (id text : String) : Closes (refused id text) :=
  closes_of_opened nofun nofun

theorem closes_congr (hs : t.sent = s.sent) (hg : t.stage = s.stage) (hi : Closes s) :
    Closes t := by
  constructor
  · rw [hs, hg]
    exact hi.opened
  · rw [hs, hg]
    exact hi.closed

/-- A response that is not final leaves a stream open. -/
theorem closes_propose {r : TaskResponse} (free : t.waiting = none) (hs : t.sent = s.sent)
    (ht : t.stage ≠ .closed) (ho : s.stage ≠ .closed) (hr : r.isFinal = false) (hi : Closes s) :
    Closes (t.propose r) := by
  refine closes_of_opened ht ?_
  rw [sent_propose free, hs]
  intro r' hm
  rcases List.mem_append.1 hm with hm | hm
  · exact hi.opened ho r' hm
  · rw [List.mem_singleton.1 hm]
    exact hr

theorem afterHandler_ne_closed {o : Outcome} (h : o ≠ .overflow) : afterHandler o ≠ .closed := by
  cases o with
  | done => exact nofun
  | failed e => exact nofun
  | overflow => exact absurd rfl h

theorem outcome_step (h : s.step a = some t) : t.outcome = s.outcome := by
  cases moves_of_step h <;> rfl

/-- Every action keeps it, unless the handler ends with its arithmetic running over. -/
theorem closes_step (h : s.step a = some t) (ho : s.outcome ≠ .overflow) (hi : Closes s) :
    Closes t := by
  cases moves_of_step h with
  | data free working more =>
    have hw : s.stage ≠ .closed := working.trans_ne nofun
    exact closes_propose (s := s) free rfl hw hw rfl hi
  | fail free failing =>
    have hw : s.stage ≠ .closed := failing.trans_ne nofun
    exact closes_propose (s := s) free rfl nofun hw rfl hi
  | @finish text free ending =>
    have hw : s.stage ≠ .closed := ending.trans_ne nofun
    refine ⟨fun hc => absurd rfl hc, fun _ => ?_⟩
    exact ⟨s.sent, _, sent_propose (s := { s with stage := .closed }) free _, rfl, rfl,
      hi.opened hw⟩
  | push waiting room => exact closes_congr (sent_push waiting) rfl hi
  | conclude free working done =>
    have hw : s.stage ≠ .closed := working.trans_ne nofun
    exact closes_of_opened (afterHandler_ne_closed ho) (hi.opened hw)
  | expire working =>
    have hw : s.stage ≠ .closed := working.trans_ne nofun
    refine closes_of_opened nofun ?_
    intro r hr
    refine hi.opened hw r ?_
    unfold sent at hr ⊢
    simp only [Option.toList, List.append_nil] at hr
    exact List.mem_append_left _ hr
  | receive channel => exact closes_congr (sent_receive channel) rfl hi

theorem closes_of_reachable (h : Reachable s₀ s) (ho : s₀.outcome ≠ .overflow)
    (hi : Closes s₀) : Closes s ∧ s.outcome ≠ .overflow := by
  induction h with
  | start => exact ⟨hi, ho⟩
  | step before now ih =>
    refine ⟨closes_step now ih.2 ih.1, ?_⟩
    rw [outcome_step now]
    exact ih.2

/-- In whatever order things happen, a consumer that has seen everything has seen the end. -/
theorem ends_of_reachable (h : Reachable s₀ s) (ho : s₀.outcome ≠ .overflow) (hi : Closes s₀)
    (he : s.hasEnded = true) : Ends s.received := by
  obtain ⟨hs, hr⟩ := sent_of_hasEnded he
  rw [← hr]
  exact (closes_of_reachable h ho hi).1.closed hs

theorem reachable_advanceBy (isCut : Bool) (n : Nat) (h : Reachable s₀ s) :
    Reachable s₀ (advanceBy isCut n s) := by
  induction n generalizing s with
  | zero => exact h
  | succ n ih =>
    unfold advanceBy
    cases hf : s.firstStep (promptly isCut) with
    | none => exact h
    | some t =>
      obtain ⟨a, _, hs⟩ := step_of_firstStep hf
      exact ih (.step h hs)

theorem ends_responses (isCut : Bool) (ho : s.outcome ≠ .overflow) (hi : Closes s) :
    Ends (s.responses isCut) :=
  ends_of_reachable (reachable_advanceBy isCut s.work .start) ho hi
    (hasEnded_advanceBy (Nat.le_refl _))

end Stream

/-! ## Handlers -/

variable {d : Dispatcher} {q : TaskRequest} {p : Plan} {limit : Nat}

/-- A question that takes too long. -/
def Plan.IsLate (limit : Nat) (p : Plan) : Prop :=
  0 < p.delay ∧ limit ≤ p.delay

/-- A plan that never makes the arithmetic run over. -/
def Plan.Settles (p : Plan) : Prop :=
  ∀ c, p.next = .stop c → c.outcome ≠ .overflow

theorem outcome_ofItems (items : List (RangeItem HeightData)) :
    (Course.ofItems .done items).outcome ≠ .overflow := by
  induction items with
  | nil => exact nofun
  | cons item rest ih =>
    cases item with
    | ok data => exact ih
    | error e => exact nofun

theorem within_of_late (h : p.IsLate limit) : p.within d limit = ⟨⟨[], .done⟩, true, []⟩ :=
  if_pos h

theorem within_of_stop {c : Course} (h : ¬p.IsLate limit) (hs : p.next = .stop c) :
    p.within d limit = ⟨c, false, []⟩ := by
  unfold Plan.within
  rw [hs]
  exact if_neg h

theorem outcome_within (h : p.IsLate limit ∨ p.Settles) :
    (p.within d limit).course.outcome ≠ .overflow := by
  by_cases hl : p.IsLate limit
  · rw [within_of_late hl]
    exact nofun
  have hp := h.resolve_left hl
  cases hn : p.next with
  | stop c =>
    rw [within_of_stop hl hn]
    exact hp c hn
  | stream r =>
    unfold Plan.IsLate at hl
    unfold Plan.within
    rw [if_neg hl, hn]
    exact outcome_ofItems _

theorem outcome_course (h : p.Settles) : (p.course d).outcome ≠ .overflow := by
  unfold Plan.course
  cases hn : p.next with
  | stop c => exact h c hn
  | stream r => exact outcome_ofItems _

theorem settles_failure (e : Error) : (Plan.atOnce (.failure e)).Settles := by
  intro c hc
  cases hc
  exact nofun

theorem settles_single (delay : Nat) (kind : ResponseType) (write : α → Json)
    (answer : Except Error α) : Plan.Settles ⟨delay, .stop (.single kind write answer)⟩ := by
  intro c hc
  cases hc
  exact single_settles (single_course kind write answer)

theorem settles_ofPayload {read : Json → Except Json.Fault α} {f : α → Plan}
    (h : ∀ a, payload q read = .ok a → (f a).Settles) : (Plan.ofPayload q read f).Settles := by
  unfold Plan.ofPayload
  cases hp : payload q read with
  | ok a => exact h a hp
  | error e => exact settles_failure e

theorem settles_transactionsPlan (r : HeightRange) : (transactionsPlan r).Settles := by
  unfold transactionsPlan
  split
  · exact settles_failure _
  · exact nofun

theorem settles_latestNext {last : LatestDataRequest} (delay : Nat)
    (h : ∀ latest, d.chain.block 0 = .ok latest →
      last.lastHeight < Text.maxWord64 ∧ latest.height < Text.maxWord64) :
    Plan.Settles ⟨delay, latestNext d.maximumHeights last (d.chain.block 0)⟩ := by
  intro c hc
  cases hb : d.chain.block 0 with
  | error e =>
    rw [hb] at hc
    cases hc
    exact nofun
  | ok latest =>
    obtain ⟨hl, hh⟩ := h latest hb
    simp only [hb, latestNext, latestRange_of_lt hl hh] at hc
    cases hc

theorem settles_plan {type : TaskType} (hq : type.name = q.kind) (hf : Fits d q) :
    (d.plan q type).Settles := by
  cases type with
  | transactions => exact settles_ofPayload fun r _ => settles_transactionsPlan r
  | latestData =>
    exact settles_ofPayload fun last hl => settles_latestNext _ fun latest hb =>
      hf hq.symm last latest hl hb
  | block => exact settles_ofPayload fun _ _ => settles_single _ _ _ _
  | latestMark => exact settles_single _ _ _ _
  | reward => exact settles_ofPayload fun _ _ => settles_single _ _ _ _
  | accountBalance => exact settles_ofPayload fun _ _ => settles_single _ _ _ _
  | accountDelegations => exact settles_ofPayload fun _ _ => settles_single _ _ _ _

/-! ## Heights without a successor -/

theorem nextHeight?_of_le {h : Nat} (hl : Text.maxWord64 ≤ h) : nextHeight? h = none :=
  if_neg (Nat.not_lt.2 hl)

theorem latestRange_of_le {maximum : Nat} {last : LatestDataRequest} {latest : Block}
    (h : Text.maxWord64 ≤ last.lastHeight ∨ Text.maxWord64 ≤ latest.height) :
    latestRange maximum last latest = none := by
  unfold latestRange
  by_cases hl : Text.maxWord64 ≤ last.lastHeight
  · have hp : 0 < last.lastHeight := by
      unfold Text.maxWord64 at hl
      omega
    rw [if_pos hp, nextHeight?_of_le hl]
    rfl
  · rw [nextHeight?_of_lt (Nat.not_le.1 hl), nextHeight?_of_le (h.resolve_left hl)]
    split
    · rfl
    · rfl

/-- A task that counts on from a height without a successor. -/
theorem exists_of_not_fits (h : ¬Fits d q) :
    q.kind = TaskType.latestData.name ∧ ∃ last latest,
      payload q LatestDataRequest.ofJson = .ok last ∧ d.chain.block 0 = .ok latest ∧
        (Text.maxWord64 ≤ last.lastHeight ∨ Text.maxWord64 ≤ latest.height) := by
  unfold Fits at h
  simp only [not_forall, not_and_or, Nat.not_lt] at h
  obtain ⟨hk, last, latest, hl, hb, hn⟩ := h
  exact ⟨hk, last, latest, hl, hb, hn⟩

theorem plan_of_not_fits (h : ¬Fits d q) :
    q.kind = TaskType.latestData.name ∧
      d.plan q .latestData = ⟨d.chain.delay 0, .stop ⟨[], .overflow⟩⟩ := by
  obtain ⟨hk, last, latest, hl, hb, hn⟩ := exists_of_not_fits h
  refine ⟨hk, ?_⟩
  simp only [Dispatcher.plan, Plan.ofPayload, hl, hb, latestNext, latestRange_of_le hn]

/-! ## Tasks -/

/-- The question for the latest block takes too long. -/
def Dispatcher.IsLate (d : Dispatcher) : Prop :=
  0 < d.chain.delay 0 ∧ d.timeout ≤ d.chain.delay 0

theorem dispatch_of_ofName {type : TaskType} (h : TaskType.ofName q.kind = .ok type) :
    (d.dispatch q).1 = (Stream.start q.id ((d.plan q type).within d d.timeout).course).responses
      ((d.plan q type).within d d.timeout).isCut := by
  unfold Dispatcher.dispatch
  rw [h]

theorem ends_dispatch (h : ∀ type : TaskType, type.name = q.kind →
    (d.plan q type).IsLate d.timeout ∨ (d.plan q type).Settles) : Ends (d.dispatch q).1 := by
  by_cases hu : ∀ type : TaskType, type.name ≠ q.kind
  · rw [dispatch_of_unknown d hu]
    exact ⟨[], _, rfl, rfl, rfl, nofun⟩
  · obtain ⟨type, hq⟩ := not_forall_not.1 hu
    rw [dispatch_of_ofName (hq ▸ ofName_name type)]
    exact Stream.ends_responses _ (outcome_within (h type hq)) (Stream.closes_start ..)

/-- Where the arithmetic runs over, the consumer receives nothing. -/
theorem dispatch_of_not_fits (h : ¬Fits d q) (hl : ¬d.IsLate) : (d.dispatch q).1 = [] := by
  obtain ⟨hk, hp⟩ := plan_of_not_fits h
  have hw : (d.plan q .latestData).within d d.timeout = ⟨⟨[], .overflow⟩, false, []⟩ := by
    rw [hp]
    exact within_of_stop hl rfl
  rw [dispatch_of_ofName (hk ▸ ofName_name .latestData), hw]
  exact Stream.responses_start ..

/-- The stream for a task before its handler has produced anything. -/
def Dispatcher.stream (d : Dispatcher) (q : TaskRequest) : Stream :=
  match TaskType.ofName q.kind with
  | .error e => .refused q.id e.message
  | .ok type => .start q.id ((d.plan q type).course d)

theorem closes_stream (d : Dispatcher) (q : TaskRequest) : (d.stream q).Closes := by
  unfold Dispatcher.stream
  split
  · exact Stream.closes_refused ..
  · exact Stream.closes_start ..

theorem outcome_stream (hf : Fits d q) : (d.stream q).outcome ≠ .overflow := by
  by_cases hu : ∀ type : TaskType, type.name ≠ q.kind
  · unfold Dispatcher.stream
    rw [ofName_of_ne hu]
    exact nofun
  · obtain ⟨type, hq⟩ := not_forall_not.1 hu
    have hn := ofName_name type
    rw [hq] at hn
    unfold Dispatcher.stream
    rw [hn]
    exact outcome_course (settles_plan hq hf)

/-- The responses to a task end with the end, whatever its type and its payload, what the chain
answers and how long it takes, unless the task counts on from a height that is the last one of 64
bits and the chain says so in time. Then there is no response at all. Where no such height is
counted on from, this holds for a consumer of any speed and wherever the timer strikes. -/
theorem dispatch_ends_iff (d : Dispatcher) (q : TaskRequest) :
    (Ends (d.dispatch q).1 ↔ Fits d q ∨ d.IsLate) ∧
      ((d.dispatch q).1 = [] ↔ ¬(Fits d q ∨ d.IsLate)) ∧
      (Fits d q → ∀ s, Stream.Reachable (d.stream q) s → s.hasEnded = true → Ends s.received) := by
  have he : Fits d q ∨ d.IsLate → Ends (d.dispatch q).1 := by
    intro h
    by_cases hf : Fits d q
    · exact ends_dispatch fun type hq => .inr (settles_plan hq hf)
    · obtain ⟨hk, hp⟩ := plan_of_not_fits hf
      refine ends_dispatch fun type hq => .inl ?_
      obtain rfl : type = .latestData := by
        have hn := ofName_name type
        rw [hq, hk, ofName_name] at hn
        exact (Except.ok.inj hn).symm
      rw [hp]
      exact h.resolve_left hf
  have hn : ¬(Fits d q ∨ d.IsLate) → (d.dispatch q).1 = [] := by
    intro h
    rw [not_or] at h
    exact dispatch_of_not_fits h.1 h.2
  refine ⟨⟨fun h => ?_, he⟩, ⟨fun h hc => ?_, hn⟩, fun hf s hs hd => ?_⟩
  · by_contra hc
    rw [hn hc] at h
    exact not_ends_nil h
  · have hs := he hc
    rw [h] at hs
    exact not_ends_nil hs
  · exact Stream.ends_of_reachable hs (outcome_stream hf) (closes_stream d q) hd

/-- A chain of thirty heights, with time enough. -/
def shortChain : Dispatcher :=
  ⟨LocalChain.chain ⟨30, [], [], [], []⟩, "", 5, 100, 1000⟩

/-- A request for what follows the last height of 64 bits. -/
def afterLastHeight : TaskRequest :=
  ⟨"task-1", "GetLatestData", .object [("last_height", .nat 18446744073709551615)]⟩

theorem dispatch_afterLastHeight :
    (shortChain.dispatch afterLastHeight).1 = [] ∧
      ¬Ends (shortChain.dispatch afterLastHeight).1 := by
  have h : (shortChain.dispatch afterLastHeight).1 = [] := by decide +kernel
  rw [h]
  exact ⟨rfl, not_ends_nil⟩

end ChainIndexer.Tasks
