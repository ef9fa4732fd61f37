import ChainIndexer.Proofs.Range.Progress
import ChainIndexer.Proofs.Tasks.Running

/-
  A timer does no more than cut a task short.

  A task that has not ended can go on without the timer, and every action leaves less to do
  (`goesOn`, `work_step`), so every run can be brought to its end (`exists_ended`). Since a run is
  one of a stream that knows everything from the start, the timer leaves of it what it leaves of
  that stream (`timeout_truncates`).
-/

namespace ChainIndexer.Tasks.Running

open Range

variable {d : Dispatcher} {p : Plan} {s t : Running} {a : Action} {id : String} {isTimed : Bool}

/-! ## Work that is left -/

/-- The work that is left to a handler. -/
def Handler.work (p : Plan) : Handler → Nat
  | .asking =>
    match p.next with
    | .stop _ => 1
    | .stream r => 2 + (Pipeline.start r : Pipeline HeightData).work
  | .streaming => 1
  | .through => 0

/-- The number of actions that may still happen. -/
def work (d : Dispatcher) (p : Plan) (s : Running) : Nat :=
  (s.foreseen d p).work + Handler.work p s.handler + s.range.elim 0 Pipeline.work

theorem work_hangUp_le (f : Pipeline HeightData) : (hangUp f).work ≤ f.work := by
  unfold Pipeline.work hangUp
  dsimp only
  rw [if_pos rfl, List.length_nil]
  omega

theorem work_map_hangUp_le (range : Option (Pipeline HeightData)) :
    (range.map hangUp).elim 0 Pipeline.work ≤ range.elim 0 Pipeline.work := by
  cases range with
  | none => exact Nat.le_refl 0
  | some f => exact work_hangUp_le f

/-- Every action does some of the work. -/
theorem work_step (h : s.step d p a = some t) (hi : Foretold d p s) : t.work d p < s.work d p := by
  have hf : (t.foreseen d p).work ≤ (s.foreseen d p).work ∧
      ((∃ b, a = .respond b) → (t.foreseen d p).work < (s.foreseen d p).work) := by
    rcases foreseen_step h hi with ⟨ho, he⟩ | ⟨b, _, hs⟩
    · rw [he]
      exact ⟨Nat.le_refl _, fun ⟨b, hb⟩ => absurd hb (ho b)⟩
    · exact ⟨Nat.le_of_lt (Stream.work_step hs), fun _ => Stream.work_step hs⟩
  unfold work
  -- Learning leaves the foreseen stream alone, so the handler and the pipeline pay for it.
  cases moves_of_step h with
  | stop asking next =>
    simp only [Handler.work, asking, next] at hf ⊢
    omega
  | stream asking next =>
    have hn := (hi.asking asking).2
    simp only [Handler.work, asking, next, hn, Option.elim] at hf ⊢
    omega
  | fetch range own now =>
    have hp := Pipeline.work_step now
    simp only [range, Option.elim] at hf ⊢
    omega
  | @next f item rest streaming range free sent output =>
    have hp : Pipeline.work { f with output := rest, received := f.received ++ [item] } < f.work :=
      Pipeline.work_step (Pipeline.step_of_moves
        (.receive output : Pipeline.Moves 0 (d.chain.fetch d.pool) f .receive _))
    cases item with
    | ok data =>
      simp only [handle, streaming, range, Option.elim] at hf ⊢
      omega
    | error e =>
      have hh := work_hangUp_le { f with output := rest, received := f.received ++ [.error e] }
      simp only [handle, Handler.work, streaming, range, Option.elim] at hf ⊢
      omega
  | finish streaming range free sent output ended =>
    simp only [Handler.work, streaming] at hf ⊢
    omega
  | conclude through now => exact Nat.add_lt_add_right (Nat.add_lt_add_right (hf.2 ⟨_, rfl⟩) _) _
  | expire now =>
    have hlt := hf.2 ⟨_, rfl⟩
    have hr := work_map_hangUp_le s.range
    have hz : Handler.work p .through = 0 := rfl
    dsimp only
    omega
  | respond more inTime now =>
    exact Nat.add_lt_add_right (Nat.add_lt_add_right (hf.2 ⟨_, rfl⟩) _) _

/-! ## A way to the end -/

/-- Something can happen that is not the end of the time. -/
def GoesOn (d : Dispatcher) (p : Plan) (s : Running) : Prop :=
  ∃ a t, a ≠ .respond .expire ∧ s.step d p a = some t

theorem goesOn_of_moves (h : Moves d p s a t) (ha : a ≠ .respond .expire) : GoesOn d p s :=
  ⟨a, t, ha, step_of_moves h⟩

/-- What the stream can do without the handler. -/
theorem goesOn_of_stream {c : Stream.Action} {u : Stream} (h : s.stream.step c = some u)
    (more : c ≠ .conclude) (inTime : c ≠ .expire) : GoesOn d p s :=
  goesOn_of_moves (.respond more inTime h) fun hc => inTime (Action.respond.inj hc)

/-- A handler that has sent everything takes the next result, or its pipeline goes on. -/
theorem goesOn_of_streaming (hh : s.handler = .streaming) (hi : Foretold d p s)
    (free : s.stream.waiting = none) (sent : s.stream.rest = []) : GoesOn d p s := by
  obtain ⟨f, range, _, r, _, hr⟩ := hi.streaming hh
  cases output : f.output with
  | cons item rest => exact goesOn_of_moves (.next hh range free sent output) nofun
  | nil =>
    cases ended : f.hasEnded with
    | true => exact goesOn_of_moves (.finish hh range free sent output ended) nofun
    | false =>
      obtain ⟨b, g, hb, hs⟩ :=
        Pipeline.goesOn (Pipeline.workers_pos d.workers) (Pipeline.traced_of_reachable hr) ended
      have own : isConsumers b = false := by
        cases Pipeline.moves_of_step hs with
        | receive more => exact nomatch output.symm.trans more
        | cancel wanted => exact absurd rfl hb
        | _ => rfl
      exact goesOn_of_moves (.fetch range own hs) nofun

/-- A handler at work with nothing to send gets something or comes to its end. -/
theorem goesOn_of_working (hi : Foretold d p s) (working : s.stream.stage = .working)
    (free : s.stream.waiting = none) (sent : s.stream.rest = []) : GoesOn d p s := by
  cases hh : s.handler with
  | asking =>
    cases hn : p.next with
    | stop c => exact goesOn_of_moves (.stop hh hn) (by simp)
    | stream r => exact goesOn_of_moves (.stream hh hn) (by simp)
  | streaming => exact goesOn_of_streaming hh hi free sent
  | through =>
    have hs : s.stream.step .conclude =
        some { s.stream with stage := Stream.afterHandler s.stream.outcome } := by
      simp only [Stream.step, free, working, sent]
    exact goesOn_of_moves (.conclude hh hs) (by simp)

/-- As long as the consumer has not seen the end, something can happen without the timer. -/
theorem goesOn (hi : Foretold d p s) (he : s.hasEnded = false) : GoesOn d p s := by
  cases hf : s.stream.firstStep (Stream.promptly false) with
  | none =>
    unfold hasEnded at he
    rw [Stream.hasEnded_of_firstStep hf] at he
    cases he
  | some u =>
    obtain ⟨c, hm, hs⟩ := Stream.step_of_firstStep hf
    by_cases more : c = .conclude
    · -- The stream would let its handler conclude: it has sent everything that it knows.
      subst more
      cases Stream.moves_of_step hs with
      | conclude free working done => exact goesOn_of_working hi working free done
    · refine goesOn_of_stream hs more ?_
      rintro rfl
      simp [Stream.promptly] at hm

/-- Every run can be brought to its end without the timer. -/
theorem exists_ended (h : Reachable isTimed d p id s) :
    ∃ t, Reachable isTimed d p id t ∧ t.hasEnded = true := by
  induction hn : s.work d p using Nat.strongRecOn generalizing s with
  | ind n ih =>
    cases he : s.hasEnded with
    | true => exact ⟨s, h, he⟩
    | false =>
      have hi := foretold_of_reachable h
      obtain ⟨a, t, ha, hs⟩ := goesOn hi he
      exact ih (t.work d p) (hn ▸ work_step hs hi) (.step h hs fun hc => absurd hc ha) rfl

/-! ## With a timer and without -/

/-- The responses that have been received, without their numbers. -/
def contents (s : Running) : List Content :=
  s.stream.received.map TaskResponse.content

theorem contents_of_untimed (h : Reachable false d p id s) (he : s.hasEnded = true) :
    s.contents = (p.course d).contents :=
  Stream.contents_of_uncut (s := s.foreseen d p) (uncut_foreseen h) he

theorem truncates_contents (h : Reachable isTimed d p id s) (he : s.hasEnded = true) :
    Truncates (p.course d) s.contents :=
  Stream.truncates_of_reachable (s := s.foreseen d p) (reachable_foreseen h) he

theorem truncates_dispatch {q : TaskRequest} {type : TaskType} (known : type.name = q.kind) :
    Truncates ((d.plan q type).course d) ((d.dispatch q).1.map TaskResponse.content) := by
  obtain ⟨s, hs, he, hr⟩ := reachable_dispatch d q
  have hd : d.stream q = .start q.id ((d.plan q type).course d) := by
    unfold Dispatcher.stream
    rw [← known, ofName_name]
  rw [hd] at hs
  rw [← hr]
  exact Stream.truncates_of_reachable hs he

/-- A timer does no more than cut the responses to a task short. Without one there is a way to the
end, and whoever sees it has the data that the task asks for, an error if the handler failed, and
the end. With one the consumer of any run, and the prompt one, has the same or a beginning of that
data, one error that says so, and the end. -/
theorem timeout_truncates (d : Dispatcher) (q : TaskRequest) (type : TaskType)
    (known : type.name = q.kind) (fits : Fits d q) :
    ∃ c, Answers d q type c ∧
      (∃ s, Reachable false d (d.plan q type) q.id s ∧ s.hasEnded = true) ∧
      ∀ s, Reachable false d (d.plan q type) q.id s → s.hasEnded = true →
        s.contents = c.data.map Body.content ++ c.outcome.failure?.toList.map failureContent ++
          [⟨"END", .null, none, true⟩] ∧
        ∀ cs, (cs = (d.dispatch q).1.map TaskResponse.content ∨
            ∃ t, Reachable true d (d.plan q type) q.id t ∧ t.hasEnded = true ∧ t.contents = cs) →
          cs = s.contents ∨ ∃ data, data <+: c.data ∧
            cs = data.map Body.content ++ [⟨"Error", .null, some "deadline has elapsed", false⟩,
              ⟨"END", .null, none, true⟩] := by
  have ha := answers_course known fits
  refine ⟨_, ha, exists_ended .start, ?_⟩
  intro s hs he
  have hc := contents_of_untimed hs he
  refine ⟨?_, ?_⟩
  · rw [hc, Course.contents, closing_of_ne_overflow (answers_settles ha), ← List.append_assoc]
    rfl
  · intro cs h
    have ht : Truncates ((d.plan q type).course d) cs := by
      rcases h with rfl | ⟨t, ht, hte, rfl⟩
      · exact truncates_dispatch known
      · exact truncates_contents ht hte
    rw [hc]
    cases ht with
    | whole => exact .inl rfl
    | cut begins => exact .inr ⟨_, begins, rfl⟩

/-- The task after some actions, if each is possible in its turn. -/
def play (d : Dispatcher) (p : Plan) : List Action → Running → Option Running
  | [], s => some s
  | a :: rest, s => (s.step d p a).bind (play d p rest)

theorem reachable_of_play {as : List Action} (h : Reachable true d p id s)
    (hp : play d p as s = some t) : Reachable true d p id t := by
  induction as generalizing s with
  | nil =>
    obtain rfl := Option.some.inj hp
    exact h
  | cons a rest ih =>
    obtain ⟨u, hu, hr⟩ := Option.bind_eq_some_iff.1 hp
    exact ih (.step h hu fun _ => rfl) hr

/-- A run in which the timer strikes after the first of three heights: its block waits to be
received, and the second height is being fetched. -/
def struck : List Action :=
  .answer :: [.order, .hand, .take, .finish 1, .order, .hand, .take, .await, .collect,
      .deliver].map .fetch ++
    .next :: [.produce, .push, .expire, .produce, .push, .produce, .push, .receive, .receive,
      .receive].map .respond

theorem timeout_truncates_struck :
    TaskType.transactions.name = threeHeights.kind ∧ Fits patient threeHeights ∧
      ∃ (c : Course) (s t : Running), Answers patient threeHeights .transactions c ∧
        Reachable false patient (patient.plan threeHeights .transactions) "task-1" s ∧
        Reachable true patient (patient.plan threeHeights .transactions) "task-1" t ∧
        s.hasEnded = true ∧ t.hasEnded = true ∧
        t.stream.received.map (fun r => (r.kind, r.order, r.error, r.isFinal)) =
          [("Block", 0, none, false), ("Error", 1, some "deadline has elapsed", false),
            ("END", 2, none, true)] ∧
        (t.contents = s.contents ∨ ∃ data, data <+: c.data ∧
          t.contents = data.map Body.content ++
            [⟨"Error", .null, some "deadline has elapsed", false⟩,
              ⟨"END", .null, none, true⟩]) := by
  have hf : Fits patient threeHeights := fun h => absurd h (by decide)
  have hp : (play patient (patient.plan threeHeights .transactions) struck
      (start "task-1")).isSome = true := rfl
  obtain ⟨t, ht⟩ := Option.isSome_iff_exists.1 hp
  have hr := reachable_of_play .start ht
  obtain ⟨c, ha, ⟨s, hs, he⟩, hu⟩ := timeout_truncates patient threeHeights .transactions rfl hf
  obtain rfl := (Option.some.inj ht).symm
  exact ⟨rfl, hf, c, s, _, ha, hs, hr, he, rfl, rfl, (hu s hs he).2 _ (.inr ⟨_, hr, rfl, rfl⟩)⟩

end ChainIndexer.Tasks.Running
