import ChainIndexer.Proofs.Tasks.Truncation
import ChainIndexer.Tasks.Running

/-
  A task that runs and a stream that knows everything from the start.

  A task learns bit by bit what it has to send. `foreseen` puts what the task has still to learn
  behind what it has learnt, which is the stream of a handler that knows everything from the start.
  Learning does not change it, and whatever happens to the responses happens to it too
  (`foreseen_step`). So every run of a task, with all that its pipeline does, is a run of a stream
  (`reachable_foreseen`), and a run without a timer is one without a timer (`uncut_foreseen`).
-/

namespace ChainIndexer.Tasks

/-! ## Streams -/

namespace Stream

variable {s t : Stream} {a : Action}

/-- Until the handler concludes or its time is over, it is at work. -/
theorem working_of_inTime (h : s.step a = some t) (more : a ≠ .conclude)
    (inTime : a ≠ .expire) (hw : s.stage = .working) : t.stage = .working := by
  cases moves_of_step h with
  | data free working rest => exact working
  | fail free failing => exact nomatch hw.symm.trans failing
  | finish free ending => exact nomatch hw.symm.trans ending
  | push waiting room => exact hw
  | conclude free working done => exact absurd rfl more
  | expire working => exact absurd rfl inTime
  | receive channel => exact hw

theorem rest_of_step (h : s.step a = some t) (hr : s.rest = []) : t.rest = [] := by
  cases moves_of_step h with
  | data free working more => exact nomatch hr.symm.trans more
  | expire working => rfl
  | _ => exact hr

/-- After the handler has gone away it does not matter what it would have learnt. -/
theorem lengthen_of_ne {more more' : List Body} {outcome : Outcome} (h : s.stage ≠ .working) :
    s.lengthen more outcome = s.lengthen more' outcome := by
  unfold lengthen
  rw [if_neg h, if_neg h]

end Stream

namespace Running

open Range

variable {d : Dispatcher} {p : Plan} {s t : Running} {a : Action} {id : String} {isTimed : Bool}

/-! ## Actions, one by one -/

/-- An action with what it needs, and the task after it. -/
inductive Moves (d : Dispatcher) (p : Plan) (s : Running) : Action → Running → Prop
  | stop {c : Course} (asking : s.handler = .asking) (next : p.next = .stop c) :
      Moves d p s .answer { s with handler := .through, stream := s.stream.learn c }
  | stream {r : HeightRange} (asking : s.handler = .asking) (next : p.next = .stream r) :
      Moves d p s .answer { s with handler := .streaming, range := some (.start r) }
  | fetch {b : Pipeline.Action} {f g : Pipeline HeightData} (range : s.range = some f)
      (own : isConsumers b = false)
      (now : f.step (Pipeline.workers d.workers) (d.chain.fetch d.pool) b = some g) :
      Moves d p s (.fetch b) { s with range := some g }
  | next {f : Pipeline HeightData} {item : RangeItem HeightData}
      {rest : List (RangeItem HeightData)} (streaming : s.handler = .streaming)
      (range : s.range = some f) (free : s.stream.waiting = none) (sent : s.stream.rest = [])
      (output : f.output = item :: rest) :
      Moves d p s .next
        (s.handle { f with output := rest, received := f.received ++ [item] } item)
  | finish {f : Pipeline HeightData} (streaming : s.handler = .streaming)
      (range : s.range = some f) (free : s.stream.waiting = none) (sent : s.stream.rest = [])
      (output : f.output = []) (ended : f.hasEnded = true) :
      Moves d p s .next { s with handler := .through, stream := s.stream.learn ⟨[], .done⟩ }
  | conclude {u : Stream} (through : s.handler = .through)
      (now : s.stream.step .conclude = some u) :
      Moves d p s (.respond .conclude) { s with stream := u }
  | expire {u : Stream} (now : s.stream.step .expire = some u) :
      Moves d p s (.respond .expire) ⟨.through, s.range.map hangUp, u⟩
  | respond {b : Stream.Action} {u : Stream} (more : b ≠ .conclude) (inTime : b ≠ .expire)
      (now : s.stream.step b = some u) :
      Moves d p s (.respond b) { s with stream := u }

theorem moves_of_step (h : s.step d p a = some t) : Moves d p s a t := by
  cases a with
  | answer =>
    simp only [step] at h
    split at h
    · rename_i hh hn
      cases h
      exact .stop hh hn
    · rename_i hh hn
      cases h
      exact .stream hh hn
    · cases h
  | fetch b =>
    simp only [step] at h
    split at h
    · rename_i f hf
      split at h
      · cases h
      · rename_i hc
        obtain ⟨g, hg, rfl⟩ := Option.map_eq_some_iff.1 h
        exact .fetch hf (Bool.eq_false_iff.2 hc) hg
    · cases h
  | next =>
    simp only [step] at h
    split at h
    · rename_i f hh hf hw hr
      unfold takeNext at h
      split at h
      · rename_i item rest ho
        cases h
        exact .next hh hf hw hr ho
      · rename_i ho
        split at h
        · rename_i he
          cases h
          exact .finish hh hf hw hr ho he
        · cases h
    · cases h
  | respond b =>
    cases b with
    | conclude =>
      simp only [step] at h
      split at h
      · rename_i hh
        obtain ⟨u, hu, rfl⟩ := Option.map_eq_some_iff.1 h
        exact .conclude hh hu
      · cases h
    | expire =>
      obtain ⟨u, hu, rfl⟩ := Option.map_eq_some_iff.1 h
      exact .expire hu
    | _ =>
      obtain ⟨u, hu, rfl⟩ := Option.map_eq_some_iff.1 h
      exact .respond nofun nofun hu

theorem step_of_moves (h : Moves d p s a t) : s.step d p a = some t := by
  cases h with
  | stop asking next => simp only [step, asking, next]
  | stream asking next => simp only [step, asking, next]
  | fetch range own now =>
    simp only [step, range, own, now, Bool.false_eq_true, if_false, Option.map_some]
  | next streaming range free sent output =>
    simp only [step, streaming, range, free, sent, takeNext, output]
  | finish streaming range free sent output ended =>
    simp only [step, streaming, range, free, sent, takeNext, output, ended, if_true]
  | conclude through now => simp only [step, through, now, if_true, Option.map_some]
  | expire now => simp only [step, now, Option.map_some]
  | @respond b u more inTime now =>
    cases b with
    | conclude => exact absurd rfl more
    | expire => exact absurd rfl inTime
    | _ => simp only [step, now, Option.map_some]

/-! ## The pipeline of a handler -/

variable {f g : Pipeline HeightData} {item : RangeItem HeightData}
  {rest : List (RangeItem HeightData)}

/-- A pipeline from which the handler takes its results. -/
def Attended (d : Dispatcher) (p : Plan) (f : Pipeline HeightData) : Prop :=
  f.cancelled = false ∧ ∃ r, p.next = .stream r ∧
    Pipeline.Reachable (Pipeline.workers d.workers) (d.chain.fetch d.pool) r f

/-- The results that a pipeline has for its consumer, and those that it still brings. -/
def coming (d : Dispatcher) (f : Pipeline HeightData) : List (RangeItem HeightData) :=
  f.output ++ f.toCome (d.chain.fetch d.pool)

theorem attended_start {r : HeightRange} (hn : p.next = .stream r) : Attended d p (.start r) :=
  ⟨rfl, r, hn, .start⟩

/-- What the pipeline does by itself takes nothing from it. -/
theorem kept_of_own {w : Nat} {fetch : Nat → Except Error HeightData} {b : Pipeline.Action}
    (h : f.step w fetch b = some g) (own : isConsumers b = false) :
    g.received = f.received ∧ g.cancelled = f.cancelled := by
  cases Pipeline.moves_of_step h with
  | receive output => cases own
  | cancel wanted => cases own
  | _ => exact ⟨rfl, rfl⟩

variable {b : Pipeline.Action}

theorem attended_step
    (h : f.step (Pipeline.workers d.workers) (d.chain.fetch d.pool) b = some g)
    (own : isConsumers b = false) (hi : Attended d p f) : Attended d p g := by
  obtain ⟨hc, r, hn, hr⟩ := hi
  exact ⟨(kept_of_own h own).2.trans hc, r, hn, .step hr h⟩

theorem coming_step
    (h : f.step (Pipeline.workers d.workers) (d.chain.fetch d.pool) b = some g)
    (own : isConsumers b = false) (hi : Attended d p f) : coming d g = coming d f := by
  obtain ⟨hc, r, hn, hr⟩ := hi
  obtain ⟨hk, hc'⟩ := kept_of_own h own
  -- Received, waiting and to come are together the reference, before and after.
  have hf := (Pipeline.conserved_of_reachable hr).wanted hc
  have hg := (Pipeline.conserved_of_reachable (.step hr h)).wanted (hc'.trans hc)
  rw [List.append_assoc] at hf hg
  rw [hk, ← hf] at hg
  exact List.append_cancel_left hg

theorem attended_receive (output : f.output = item :: rest) (hi : Attended d p f) :
    Attended d p { f with output := rest, received := f.received ++ [item] } := by
  obtain ⟨hc, r, hn, hr⟩ := hi
  exact ⟨hc, r, hn, .step hr (Pipeline.step_of_moves (.receive output))⟩

theorem coming_receive (output : f.output = item :: rest) :
    coming d f = item :: coming d { f with output := rest, received := f.received ++ [item] } := by
  unfold coming
  rw [output]
  rfl

theorem coming_of_hasEnded (output : f.output = []) (ended : f.hasEnded = true) :
    coming d f = [] := by
  unfold Pipeline.hasEnded Pipeline.isRunning at ended
  unfold coming Pipeline.toCome
  rw [output]
  cases hs : f.supervisor with
  | gone => rfl
  | _ => simp [hs] at ended

/-! ## What is still to be learnt -/

/-- What the handler has still to learn. -/
def remainder (d : Dispatcher) (p : Plan) (s : Running) : Course :=
  match s.handler, s.range with
  | .asking, _ => p.course d
  | .streaming, some f => .ofItems .done (coming d f)
  | _, _ => ⟨[], s.stream.outcome⟩

theorem remainder_of_asking (h : s.handler = .asking) : s.remainder d p = p.course d := by
  unfold remainder
  rw [h]

theorem remainder_of_streaming (h : s.handler = .streaming) (hr : s.range = some f) :
    s.remainder d p = .ofItems .done (coming d f) := by
  unfold remainder
  rw [h, hr]

theorem remainder_of_through (h : s.handler = .through) :
    s.remainder d p = ⟨[], s.stream.outcome⟩ := by
  unfold remainder
  rw [h]

theorem remainder_congr (hh : t.handler = s.handler) (hr : t.range = s.range)
    (ho : t.stream.outcome = s.stream.outcome) : t.remainder d p = s.remainder d p := by
  unfold remainder
  rw [hh, hr, ho]

/-- What the handler has still to learn is the rest of what it comes to. -/
structure Foretold (d : Dispatcher) (p : Plan) (s : Running) : Prop where
  outcome : s.stream.stage = .working → (s.remainder d p).outcome = (p.course d).outcome
  working : s.handler ≠ .through → s.stream.stage = .working
  asking : s.handler = .asking → s.stream.rest = [] ∧ s.range = none
  streaming : s.handler = .streaming → ∃ f, s.range = some f ∧ Attended d p f

theorem foretold_start (d : Dispatcher) (p : Plan) (id : String) : Foretold d p (start id) :=
  ⟨fun _ => rfl, fun _ => rfl, fun _ => ⟨rfl, rfl⟩, nofun⟩

theorem working_of_asking (hi : Foretold d p s) (h : s.handler = .asking) :
    s.stream.stage = .working :=
  hi.working (h.trans_ne Handler.noConfusion)

theorem working_of_streaming (hi : Foretold d p s) (h : s.handler = .streaming) :
    s.stream.stage = .working :=
  hi.working (h.trans_ne Handler.noConfusion)

/-- A handler that is through has nothing to learn. -/
theorem foretold_of_through (hh : t.handler = .through)
    (ho : t.stream.stage = .working → t.stream.outcome = (p.course d).outcome) :
    Foretold d p t := by
  refine ⟨?_, fun h => absurd hh h, fun h => ?_, fun h => ?_⟩
  · intro hw
    rw [remainder_of_through hh]
    exact ho hw
  · rw [hh] at h
    cases h
  · rw [hh] at h
    cases h

theorem foretold_of_streaming (hh : t.handler = .streaming) (hr : t.range = some f)
    (hw : t.stream.stage = .working) (hi : Attended d p f)
    (ho : (Course.ofItems .done (coming d f)).outcome = (p.course d).outcome) :
    Foretold d p t := by
  refine ⟨?_, fun _ => hw, fun h => ?_, fun _ => ⟨f, hr, hi⟩⟩
  · intro _
    rw [remainder_of_streaming hh hr]
    exact ho
  · rw [hh] at h
    cases h

/-- The outcome of the results of a pipeline in use. -/
theorem outcome_coming (hi : Foretold d p s) (hh : s.handler = .streaming)
    (hr : s.range = some f) :
    (Course.ofItems .done (coming d f)).outcome = (p.course d).outcome := by
  rw [← remainder_of_streaming hh hr]
  exact hi.outcome (working_of_streaming hi hh)

theorem attended_of_foretold (hi : Foretold d p s) (hh : s.handler = .streaming)
    (hr : s.range = some f) : Attended d p f := by
  obtain ⟨g, hg, ha⟩ := hi.streaming hh
  obtain rfl := Option.some.inj (hr.symm.trans hg)
  exact ha

theorem foretold_step (h : s.step d p a = some t) (hi : Foretold d p s) : Foretold d p t := by
  cases moves_of_step h with
  | @stop c asking next =>
    refine foretold_of_through rfl fun _ => ?_
    unfold Plan.course
    rw [next]
    rfl
  | @stream r asking next =>
    have hw := working_of_asking hi asking
    refine foretold_of_streaming rfl rfl hw (attended_start next) ?_
    unfold Plan.course
    rw [next]
    rfl
  | @fetch b f g range own now =>
    cases hh : s.handler with
    | asking =>
      have hn := (hi.asking hh).2
      rw [range] at hn
      cases hn
    | streaming =>
      have hw := working_of_streaming hi hh
      have ha := attended_of_foretold hi hh range
      refine foretold_of_streaming rfl rfl hw (attended_step now own ha) ?_
      rw [coming_step now own ha]
      exact outcome_coming hi hh range
    | through =>
      -- The pipeline runs down behind a handler that has left it.
      refine foretold_of_through rfl fun hw => ?_
      have ho := hi.outcome hw
      rwa [remainder_of_through hh] at ho
  | @next f item rest streaming range free sent output =>
    have hw := working_of_streaming hi streaming
    have ho := outcome_coming hi streaming range
    rw [coming_receive output] at ho
    cases item with
    | ok data =>
      exact foretold_of_streaming streaming rfl hw
        (attended_receive output (attended_of_foretold hi streaming range)) ho
    | error e => exact foretold_of_through rfl fun _ => ho
  | @finish f streaming range free sent output ended =>
    have ho := outcome_coming hi streaming range
    rw [coming_of_hasEnded output ended] at ho
    exact foretold_of_through rfl fun _ => ho
  | conclude through now =>
    refine foretold_of_through through fun hw => ?_
    have ho := hi.outcome (Stream.working_of_step now hw)
    rw [remainder_of_through through] at ho
    exact (Stream.outcome_step now).trans ho
  | expire now =>
    refine foretold_of_through rfl fun hw => ?_
    cases Stream.moves_of_step now with
    | expire working => cases hw
  | @respond b u more inTime now =>
    have ho := Stream.outcome_step now
    have hr : remainder d p { s with stream := u } = s.remainder d p := remainder_congr rfl rfl ho
    refine ⟨?_, ?_, ?_, hi.streaming⟩
    · intro hw
      rw [hr]
      exact hi.outcome (Stream.working_of_step now hw)
    · intro hh
      exact Stream.working_of_inTime now more inTime (hi.working hh)
    · intro hh
      obtain ⟨hs, hn⟩ := hi.asking hh
      exact ⟨Stream.rest_of_step now hs, hn⟩

/-! ## The stream that knows everything from the start -/

/-- The stream of a task whose handler knows what it is still to learn. -/
def foreseen (d : Dispatcher) (p : Plan) (s : Running) : Stream :=
  s.stream.lengthen (s.remainder d p).data (p.course d).outcome

/-- What is learnt is the beginning of what was still to be learnt. -/
theorem foreseen_learn {c : Course} (working : s.stream.stage = .working)
    (sent : s.stream.rest = []) (ht : t.stream = s.stream.learn c)
    (hd : (s.remainder d p).data = c.data ++ (t.remainder d p).data) :
    t.foreseen d p = s.foreseen d p := by
  unfold foreseen Stream.lengthen
  rw [ht, hd]
  simp only [Stream.learn, working, sent, if_true, List.nil_append]

theorem foreseen_congr (hs : t.stream = s.stream) (hr : t.remainder d p = s.remainder d p) :
    t.foreseen d p = s.foreseen d p := by
  unfold foreseen
  rw [hs, hr]

/-- A handler that is through has nothing left to learn. -/
theorem foreseen_of_through (hh : s.handler = .through)
    (ho : s.stream.outcome = (p.course d).outcome) : s.foreseen d p = s.stream := by
  unfold foreseen Stream.lengthen
  rw [remainder_of_through hh, List.append_nil, ite_self, ← ho]

/-- A result in the hands of the handler is what was coming next. -/
theorem foreseen_handle (hi : Foretold d p s) (streaming : s.handler = .streaming)
    (range : s.range = some f) (sent : s.stream.rest = [])
    (hc : coming d f = item :: coming d g) :
    (s.handle g item).foreseen d p = s.foreseen d p := by
  have hw := working_of_streaming hi streaming
  have hr : s.remainder d p = .ofItems .done (item :: coming d g) := by
    rw [remainder_of_streaming streaming range, hc]
  cases item with
  | ok data =>
    refine foreseen_learn hw sent rfl ?_
    rw [hr, remainder_of_streaming (s := s.handle g (.ok data)) streaming rfl]
    rfl
  | error e =>
    refine foreseen_learn hw sent rfl ?_
    rw [hr, remainder_of_through rfl]
    rfl

/-- What happens to the responses of a task happens to those of the handler that knows everything,
and nothing else changes them. -/
theorem foreseen_step (h : s.step d p a = some t) (hi : Foretold d p s) :
    ((∀ b, a ≠ .respond b) ∧ t.foreseen d p = s.foreseen d p) ∨
      ∃ b, a = .respond b ∧ (s.foreseen d p).step b = some (t.foreseen d p) := by
  cases moves_of_step h with
  | @stop c asking next =>
    have hc : p.course d = c := by
      unfold Plan.course
      rw [next]
    have hw := working_of_asking hi asking
    refine .inl ⟨fun _ => Action.noConfusion, foreseen_learn hw (hi.asking asking).1 rfl ?_⟩
    rw [remainder_of_asking asking, remainder_of_through rfl, hc, List.append_nil]
  | @stream r asking next =>
    refine .inl ⟨fun _ => Action.noConfusion, foreseen_congr rfl ?_⟩
    rw [remainder_of_asking asking, remainder_of_streaming rfl rfl, Plan.course, next]
    rfl
  | @fetch b f g range own now =>
    refine .inl ⟨fun _ => Action.noConfusion, foreseen_congr rfl ?_⟩
    cases hh : s.handler with
    | asking => rw [remainder_of_asking hh, remainder_of_asking rfl]
    | streaming =>
      rw [remainder_of_streaming hh range, remainder_of_streaming rfl rfl,
        coming_step now own (attended_of_foretold hi hh range)]
    | through => rw [remainder_of_through hh, remainder_of_through rfl]
  | next streaming range free sent output =>
    exact .inl ⟨fun _ => Action.noConfusion,
      foreseen_handle hi streaming range sent (coming_receive output)⟩
  | @finish f streaming range free sent output ended =>
    have hw := working_of_streaming hi streaming
    refine .inl ⟨fun _ => Action.noConfusion, foreseen_learn hw sent rfl ?_⟩
    rw [remainder_of_streaming streaming range, remainder_of_through rfl,
      coming_of_hasEnded output ended]
    rfl
  | @conclude u through now =>
    refine .inr ⟨.conclude, rfl, ?_⟩
    have ho : s.stream.outcome = (p.course d).outcome := by
      cases Stream.moves_of_step now with
      | conclude free working done =>
        have hr := hi.outcome working
        rwa [remainder_of_through through] at hr
    have hu : u.outcome = (p.course d).outcome := (Stream.outcome_step now).trans ho
    rw [foreseen_of_through through ho,
      foreseen_of_through (s := { s with stream := u }) through hu]
    exact now
  | @expire u now =>
    -- What the handler would still have learnt is lost for both.
    refine .inr ⟨.expire, rfl, ?_⟩
    have hu : u.stage ≠ .working := by
      cases Stream.moves_of_step now with
      | expire working => exact Stage.noConfusion
    exact (Stream.step_lengthen now Stream.Action.noConfusion).trans
      (congrArg some (Stream.lengthen_of_ne hu))
  | @respond b u more inTime now =>
    refine .inr ⟨b, rfl, ?_⟩
    have hr : remainder d p { s with stream := u } = s.remainder d p :=
      remainder_congr rfl rfl (Stream.outcome_step now)
    unfold foreseen
    rw [hr]
    exact Stream.step_lengthen now more

/-! ## Runs -/

theorem foretold_of_reachable (h : Reachable isTimed d p id s) : Foretold d p s := by
  induction h with
  | start => exact foretold_start d p id
  | step before now allowed ih => exact foretold_step now ih

theorem reachable_foreseen (h : Reachable isTimed d p id s) :
    Stream.Reachable (.start id (p.course d)) (s.foreseen d p) := by
  induction h with
  | start => exact .start
  | step before now allowed ih =>
    rcases foreseen_step now (foretold_of_reachable before) with ⟨_, he⟩ | ⟨b, _, hs⟩
    · rw [he]
      exact ih
    · exact .step ih hs

theorem uncut_foreseen (h : Reachable false d p id s) :
    Stream.Uncut (.start id (p.course d)) (s.foreseen d p) := by
  induction h with
  | start => exact .start
  | step before now allowed ih =>
    rcases foreseen_step now (foretold_of_reachable before) with ⟨_, he⟩ | ⟨b, rfl, hs⟩
    · rw [he]
      exact ih
    · refine .step ih hs ?_
      rintro rfl
      exact nomatch allowed rfl

end Running

end ChainIndexer.Tasks
