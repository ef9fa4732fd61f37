import ChainIndexer.Proofs.Tasks.Numbering

/-
  A prompt consumer is one of those that may listen.

  The results of a range that come in time begin its reference, so what a handler produces in a
  limited time begins what it produces when nothing cuts it off (`data_within`). Where the timer
  strikes, it does not matter what else the handler would have produced (`step_lengthen`). So the
  responses to a task are received in one of the runs of its stream (`reachable_dispatch`), and
  what holds of every run of a stream holds of them.
-/

namespace ChainIndexer.Tasks

open Range

/-! ## Handlers with more to say -/

namespace Stream

variable {s t s₀ : Stream} {a : Action} {more : List Body} {outcome : Outcome}

/-- The stream of a handler that has more to say and ends in another way. Nothing is left of it once
the handler has been cut off. -/
def lengthen (more : List Body) (outcome : Outcome) (s : Stream) : Stream :=
  { s with rest := if s.stage = .working then s.rest ++ more else s.rest, outcome := outcome }

/-- As long as the handler does not come to its end, everything happens to both alike. -/
theorem step_lengthen (h : s.step a = some t) (ha : a ≠ .conclude) :
    (s.lengthen more outcome).step a = some (t.lengthen more outcome) := by
  cases moves_of_step h with
  | data free working more' =>
    simp [lengthen, step, propose, numbered, free, working, more']
  | fail free failing => simp [lengthen, step, propose, numbered, free, failing]
  | finish free ending => simp [lengthen, step, propose, numbered, free, ending]
  | push waiting room => simp [lengthen, step, waiting, room]
  | conclude free working done => exact absurd rfl ha
  | expire working => simp [lengthen, step, working]
  | receive channel => simp [lengthen, step, channel]

theorem reachable_lengthen (n : Nat) (h : Reachable s₀ (s.lengthen more outcome)) :
    Reachable s₀ ((advanceBy true n s).lengthen more outcome) := by
  induction n generalizing s with
  | zero => exact h
  | succ n ih =>
    unfold advanceBy
    cases hf : s.firstStep (promptly true) with
    | none => exact h
    | some t =>
      obtain ⟨a, ha, hs⟩ := step_of_firstStep hf
      have hc : a ≠ .conclude := by
        intro hc
        simp [hc, promptly] at ha
      exact ih (.step h (step_lengthen hs hc))

/-- What a prompt consumer receives of a handler that is cut off, a consumer may receive of any
handler that begins in the same way. -/
theorem reachable_responses_cut (id : String) {c c' : Course} (h : c.data <+: c'.data) :
    ∃ s, Reachable (start id c') s ∧ s.hasEnded = true ∧
      s.received = (start id c).responses true := by
  obtain ⟨more, hm⟩ := h
  have hs : (start id c).lengthen more c'.outcome = start id c' := by
    simp [lengthen, start, hm]
  have hb : Reachable (start id c') ((start id c).lengthen more c'.outcome) := by
    rw [hs]
    exact .start
  have he : (advanceBy true (start id c).work (start id c)).hasEnded = true :=
    hasEnded_advanceBy (Nat.le_refl _)
  exact ⟨_, reachable_lengthen (start id c).work hb, he, rfl⟩

end Stream

/-! ## Handlers in a limited time -/

theorem data_ofItems (outcome outcome' : Outcome) {items items' : List (RangeItem HeightData)}
    (h : items <+: items') :
    (Course.ofItems outcome items).data <+: (Course.ofItems outcome' items').data := by
  induction items generalizing items' with
  | nil => exact List.nil_prefix
  | cons item rest ih =>
    obtain ⟨more, rfl⟩ := h
    cases item with
    | error e => exact List.nil_prefix
    | ok data =>
      rw [List.cons_append, ofItems_cons_ok, ofItems_cons_ok]
      exact (List.prefix_append_right_inj _).2 (ih (List.prefix_append rest more))

/-- What a handler produces in a limited time begins what it produces with all time. -/
theorem data_within (d : Dispatcher) (limit : Nat) (p : Plan) :
    (p.within d limit).course.data <+: (p.course d).data := by
  by_cases hl : p.IsLate limit
  · rw [within_of_late hl]
    exact List.nil_prefix
  cases hn : p.next with
  | stop c =>
    have he : (p.within d limit).course = p.course d := by
      rw [within_of_stop hl hn, Plan.course, hn]
    exact ⟨[], (List.append_nil _).trans (congrArg Course.data he)⟩
  | stream r =>
    have hi := Pipeline.conserved_of_reachable
      (Timeline.reachable_run ⟨Pipeline.workers d.workers, d.chain.fetch d.pool, d.chain.delay,
        none, some (limit - p.delay)⟩ r)
    unfold Plan.IsLate at hl
    unfold Plan.within Plan.course
    rw [if_neg hl, hn]
    exact data_ofItems .done .done (Pipeline.received_begins hi)

/-- The responses to a task are what one of its consumers receives up to the end. -/
theorem reachable_dispatch (d : Dispatcher) (q : TaskRequest) :
    ∃ s, Stream.Reachable (d.stream q) s ∧ s.hasEnded = true ∧ s.received = (d.dispatch q).1 := by
  unfold Dispatcher.stream Dispatcher.dispatch
  cases TaskType.ofName q.kind with
  | error e =>
    exact ⟨_, Stream.reachable_advanceBy false _ .start,
      Stream.hasEnded_advanceBy (Nat.le_refl _), rfl⟩
  | ok type =>
    dsimp only
    cases hc : ((d.plan q type).within d d.timeout).isCut with
    | false =>
      rw [course_within hc]
      exact ⟨_, Stream.reachable_advanceBy false _ .start,
        Stream.hasEnded_advanceBy (Nat.le_refl _), rfl⟩
    | true => exact Stream.reachable_responses_cut q.id (data_within d d.timeout _)

end ChainIndexer.Tasks
