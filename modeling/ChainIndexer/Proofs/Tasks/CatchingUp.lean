import Mathlib.Data.List.Sort
import ChainIndexer.Proofs.Range.Asking
import ChainIndexer.Proofs.Tasks.Following
import ChainIndexer.Proofs.Tasks.Timeout

/-
  Which heights a task fetches.

  The pipeline of a task is one of the runs of the range in its plan, whatever the handler, the
  consumer and the timer do (`pipeline_of_reachable`). A handler without a timer that has come to
  its end has taken the whole reference from it (`brought_of_reachable`). So a task that goes
  through a range asks for its heights in their order, and for all of them if nothing fails
  (`fetches_of_next`). For the latest data these are the heights between the known
  one and the latest one (`mem_heights_upTo`).
-/

namespace ChainIndexer.Tasks

open Range

/-! ## The pipeline of a task -/

namespace Running

variable {d : Dispatcher} {p : Plan} {s t : Running} {a : Action} {id : String} {isTimed : Bool}
  {f g : Pipeline HeightData} {r : HeightRange}

/-- To hang up is to cancel, if that was not done before. -/
theorem reachable_hangUp {w : Nat} {fetch : Nat → Except Error HeightData}
    (h : Pipeline.Reachable w fetch r f) : Pipeline.Reachable w fetch r (hangUp f) := by
  cases hc : f.cancelled with
  | false => exact .step h (Pipeline.step_of_moves (.cancel hc))
  | true =>
    have ho := ((Pipeline.conserved_of_reachable h).cancelled hc).1
    have he : hangUp f = f := by
      unfold hangUp
      rw [← hc, ← ho]
    rwa [he]

/-- The pipeline of a task, if it has one, is a run of the range in the plan. -/
def Piped (d : Dispatcher) (p : Plan) (s : Running) : Prop :=
  ∀ f, s.range = some f → ∃ r, p.next = .stream r ∧
    Pipeline.Reachable (Pipeline.workers d.workers) (d.chain.fetch d.pool) r f

theorem piped_step (h : s.step d p a = some t) (hi : Piped d p s) : Piped d p t := by
  intro g hg
  cases moves_of_step h with
  | stop asking next => exact hi g hg
  | @stream r asking next =>
    obtain rfl := Option.some.inj hg
    exact ⟨r, next, .start⟩
  | fetch range own now =>
    obtain rfl := Option.some.inj hg
    obtain ⟨r, hn, hr⟩ := hi _ range
    exact ⟨r, hn, .step hr now⟩
  | @next f item rest streaming range free sent output =>
    obtain ⟨r, hn, hr⟩ := hi f range
    have ht := Pipeline.Reachable.step hr (Pipeline.step_of_moves (.receive output))
    cases item with
    | ok data =>
      obtain rfl := Option.some.inj hg
      exact ⟨r, hn, ht⟩
    | error e =>
      obtain rfl := Option.some.inj hg
      exact ⟨r, hn, reachable_hangUp ht⟩
  | finish streaming range free sent output ended => exact hi g hg
  | conclude through now => exact hi g hg
  | expire now =>
    obtain ⟨f, hf, rfl⟩ := Option.map_eq_some_iff.1 hg
    obtain ⟨r, hn, hr⟩ := hi f hf
    exact ⟨r, hn, reachable_hangUp hr⟩
  | respond more inTime now => exact hi g hg

theorem pipeline_of_reachable (h : Reachable isTimed d p id s) : Piped d p s := by
  induction h with
  | start => exact fun f hf => nomatch hf
  | step before now allowed ih => exact piped_step now ih

/-! ## What a handler has taken -/

/-- A handler that is through with a range has the whole reference. -/
def Brought (d : Dispatcher) (p : Plan) (s : Running) : Prop :=
  s.handler = .through → ∀ r, p.next = .stream r →
    ∃ f, s.range = some f ∧ f.received = reference (d.chain.fetch d.pool) r

theorem brought_congr (hh : t.handler = s.handler) (hr : t.range = s.range)
    (hi : Brought d p s) : Brought d p t := by
  intro ht
  rw [hr]
  exact hi (hh ▸ ht)

/-- Only the timer takes a handler away before it has everything. -/
theorem brought_step (h : s.step d p a = some t) (inTime : a ≠ .respond .expire)
    (hf : Foretold d p s) (hi : Brought d p s) : Brought d p t := by
  cases moves_of_step h with
  | stop asking next => exact fun _ r hr => nomatch next.symm.trans hr
  | stream asking next => exact nofun
  | @fetch b f g range own now =>
    intro ht r hr
    obtain ⟨f', hf', he⟩ := hi ht r hr
    obtain rfl := Option.some.inj (range.symm.trans hf')
    exact ⟨g, rfl, (kept_of_own now own).1.trans he⟩
  | @next f item rest streaming range free sent output =>
    cases item with
    | ok data => exact fun ht => nomatch streaming.symm.trans ht
    | error e =>
      intro _ r hr
      obtain ⟨_, r', hn, hp⟩ := attended_of_foretold hf streaming range
      obtain rfl := Continuation.stream.inj (hr.symm.trans hn)
      have ht := reachable_hangUp (.step hp (Pipeline.step_of_moves (.receive output)))
      have hb := Pipeline.received_begins (Pipeline.conserved_of_reachable ht)
      -- Nothing follows an error.
      have he := List.mem_append_right f.received (List.mem_singleton_self (Except.error e))
      exact ⟨_, rfl, eq_inOrder_of_error hb he⟩
  | @finish f streaming range free sent output ended =>
    intro _ r hr
    obtain ⟨hc, r', hn, hp⟩ := attended_of_foretold hf streaming range
    obtain rfl := Continuation.stream.inj (hr.symm.trans hn)
    exact ⟨f, range, Pipeline.received_eq (Pipeline.conserved_of_reachable hp) ended hc⟩
  | conclude through now => exact brought_congr rfl rfl hi
  | expire now => exact absurd rfl inTime
  | respond more inTime now => exact brought_congr rfl rfl hi

theorem brought_of_reachable (h : Reachable false d p id s) : Brought d p s := by
  induction h with
  | start => exact nofun
  | step before now allowed ih =>
    exact brought_step now (fun he => nomatch allowed he) (foretold_of_reachable before) ih

theorem through_of_hasEnded (hi : Foretold d p s) (he : s.hasEnded = true) :
    s.handler = .through := by
  by_contra hh
  unfold hasEnded Stream.hasEnded at he
  rw [hi.working hh] at he
  cases he

end Running

/-! ## What a task fetches -/

variable {d : Dispatcher} {q : TaskRequest} {type : TaskType} {hs : List Nat}

/-- A task fetches some heights. Every run, also one that is cut off, asks for them in their order
and for nothing else. A run without a timer asks for each up to the first that fails, and has
answers for all if none fails; and there is such a run. The heights that a prompt consumer's task
counts as fetched are some of them, and all if the task is not cut off and none fails; those of a
task to which nobody listens are some of them too. -/
structure Fetches (d : Dispatcher) (q : TaskRequest) (type : TaskType) (hs : List Nat) : Prop where
  asks : ∀ isTimed s f, Running.Reachable isTimed d (d.plan q type) q.id s → s.range = some f →
    f.asked <+: hs
  ends : ∃ s, Running.Reachable false d (d.plan q type) q.id s ∧ s.hasEnded = true
  whole : ∀ s, Running.Reachable false d (d.plan q type) q.id s → s.hasEnded = true →
    ∃ f, s.range = some f ∧
      (∀ before h after, hs = before ++ h :: after →
        (∀ x ∈ before, ∃ a, d.chain.fetch d.pool x = .ok a) → h ∈ f.asked) ∧
      ((∀ h ∈ hs, ∃ a, d.chain.fetch d.pool h = .ok a) → f.asked = hs ∧ f.answered = hs)
  counts : (d.dispatch q).2 = d.chain.stats d.pool ((d.plan q type).within d d.timeout).fetched ∧
    ((d.plan q type).within d d.timeout).fetched.Sublist hs ∧
      (((d.plan q type).within d d.timeout).isCut = false →
        (∀ h ∈ hs, ∃ a, d.chain.fetch d.pool h = .ok a) →
          ((d.plan q type).within d d.timeout).fetched = hs)
  unheard : ((d.plan q type).fetchedUnheard d).Sublist hs

/-- The stats of a task are those of the heights that it has fetched. -/
theorem stats_dispatch (known : type.name = q.kind) :
    (d.dispatch q).2 = d.chain.stats d.pool ((d.plan q type).within d d.timeout).fetched := by
  unfold Dispatcher.dispatch
  rw [← known, ofName_name]

variable {r : HeightRange} {p : Plan} {limit : Nat}

/-- Whatever the consumer wants and however long it takes, what is answered is of the range. -/
theorem answered_rangeRun (wanted : Option Nat) (limit : Option Nat) (r : HeightRange) :
    (d.rangeRun wanted limit r).state.answered.Sublist r.onChain.heights := by
  have hr := Timeline.reachable_run (⟨Pipeline.workers d.workers, d.chain.fetch d.pool,
    d.chain.delay, wanted, limit⟩ : Range.Course HeightData) r
  have ha := Pipeline.asked_begins (Pipeline.conserved_of_reachable hr)
  exact (Pipeline.answered_sublist _).trans ha.sublist

theorem fetchedUnheard_sublist (next : p.next = .stream r) :
    (p.fetchedUnheard d).Sublist r.onChain.heights := by
  unfold Plan.fetchedUnheard
  rw [next]
  exact answered_rangeRun _ _ r

/-- A handler that is not cut off has seen the end of its range or a failure. -/
theorem ended_or_failed {ended : Bool} {items : List (RangeItem HeightData)}
    (inTime : (!ended && !items.any fun item => !item.isOk) = false) :
    ended = true ∨ ∃ e, .error e ∈ items := by
  simp only [Bool.and_eq_false_iff, Bool.not_eq_false', List.any_eq_true] at inTime
  refine inTime.imp_right ?_
  rintro ⟨item, hm, he⟩
  cases item with
  | ok data => cases he
  | error e => exact ⟨e, hm⟩

theorem fetched_within (next : p.next = .stream r) :
    (p.within d limit).fetched.Sublist r.onChain.heights ∧
      ((p.within d limit).isCut = false →
        (∀ h ∈ r.onChain.heights, ∃ a, d.chain.fetch d.pool h = .ok a) →
          (p.within d limit).fetched = r.onChain.heights) := by
  unfold Plan.within
  split
  · exact ⟨List.nil_sublist _, nofun⟩
  · rw [next]
    refine ⟨answered_rangeRun _ _ r, ?_⟩
    intro inTime ok
    have hr := Timeline.reachable_run (⟨Pipeline.workers d.workers, d.chain.fetch d.pool,
      d.chain.delay, none, some (limit - p.delay)⟩ : Range.Course HeightData) r
    exact (Pipeline.asked_eq hr (Timeline.items_eq rfl (ended_or_failed inTime)) ok).2

theorem fetches_of_next (known : type.name = q.kind)
    (next : (d.plan q type).next = .stream r) : Fetches d q type r.onChain.heights := by
  refine ⟨?_, Running.exists_ended .start, ?_, ⟨stats_dispatch known, fetched_within next⟩,
    fetchedUnheard_sublist next⟩
  · intro isTimed s f hs hf
    obtain ⟨r', hn, hr⟩ := Running.pipeline_of_reachable hs f hf
    obtain rfl := Continuation.stream.inj (next.symm.trans hn)
    exact Pipeline.asked_begins (Pipeline.conserved_of_reachable hr)
  · intro s hs he
    have hh := Running.through_of_hasEnded (Running.foretold_of_reachable hs) he
    obtain ⟨f, hf, received⟩ := Running.brought_of_reachable hs hh r next
    obtain ⟨r', hn, hr⟩ := Running.pipeline_of_reachable hs f hf
    obtain rfl := Continuation.stream.inj (next.symm.trans hn)
    exact ⟨f, hf, fun _ _ _ split ok => Pipeline.mem_asked hr received split ok,
      Pipeline.asked_eq hr received⟩

/-! ## The latest data -/

variable {last maximum latest : Nat}

/-- The bounds of the range come from a subtraction that stops at 0, a known height of which 0 says
that none is known, and ends that are one too high. -/
theorem mem_heights_upTo {h : Nat} :
    h ∈ (HeightRange.upTo (askedFrom last) maximum (latest + 1)).heights ↔
      1 ≤ h ∧ last < h ∧ (latest : Int) - (maximum : Int) < h ∧ h ≤ latest := by
  rw [HeightRange.mem_heights]
  unfold HeightRange.upTo askedFrom
  dsimp only
  split <;> split <;> omega

theorem length_heights_upTo_le (known maximum latest : Nat) :
    (HeightRange.upTo known maximum latest).heights.length ≤ maximum := by
  rw [HeightRange.heights, List.length_range']
  unfold HeightRange.upTo
  dsimp only
  split <;> omega

theorem next_latestData {last : LatestDataRequest} {latest : Block}
    (asks : payload q LatestDataRequest.ofJson = .ok last)
    (answer : d.chain.block 0 = .ok latest)
    (lastFits : last.lastHeight < Text.maxWord64) (latestFits : latest.height < Text.maxWord64) :
    (d.plan q .latestData).next =
      .stream (.upTo (askedFrom last.lastHeight) d.maximumHeights (latest.height + 1)) := by
  unfold Dispatcher.plan Plan.ofPayload
  rw [asks]
  unfold latestNext
  rw [answer]
  dsimp only
  rw [latestRange_of_lt lastFits latestFits]
  rfl

/-- A task for the latest data, whose heights may all be counted on from, fetches those that its
consumer is missing: from 1 on, after the last known height, not more than so many below the latest
one, and up to it. They ascend, there are never more of them than that, height 0 is none of them,
and there are none if the last known height is no lower than the latest one. -/
theorem latestData_fetches (d : Dispatcher) {q : TaskRequest} {last : LatestDataRequest}
    {latest : Block} (known : q.kind = TaskType.latestData.name)
    (asks : payload q LatestDataRequest.ofJson = .ok last)
    (answer : d.chain.block 0 = .ok latest)
    (lastFits : last.lastHeight < Text.maxWord64) (latestFits : latest.height < Text.maxWord64) :
    ∃ hs, Fetches d q .latestData hs ∧
      (∀ h, h ∈ hs ↔ 1 ≤ h ∧ last.lastHeight < h ∧
        (latest.height : Int) - (d.maximumHeights : Int) < h ∧ h ≤ latest.height) ∧
      hs.Pairwise (· < ·) ∧ hs.length ≤ d.maximumHeights ∧ 0 ∉ hs ∧
      (latest.height ≤ last.lastHeight → hs = []) := by
  have hf := fetches_of_next known.symm (next_latestData asks answer lastFits latestFits)
  rw [onChain_upTo] at hf
  refine ⟨_, hf, fun h => mem_heights_upTo, List.pairwise_lt_range' 1,
    length_heights_upTo_le _ _ _, ?_, ?_⟩
  · intro hz
    have hz := mem_heights_upTo.1 hz
    omega
  · intro hl
    rw [List.eq_nil_iff_forall_not_mem]
    intro h hm
    have hm := mem_heights_upTo.1 hm
    omega

/-- A chain of six heights of which a task may fetch three. -/
def threeOfSix : Dispatcher :=
  { sixHeights with maximumHeights := 3 }

theorem latestData_fetches_threeOfSix :
    ∃ last latest, (latestAfter 2).kind = TaskType.latestData.name ∧
      payload (latestAfter 2) LatestDataRequest.ofJson = .ok last ∧
      threeOfSix.chain.block 0 = .ok latest ∧ last.lastHeight < Text.maxWord64 ∧
      latest.height < Text.maxWord64 ∧ last.lastHeight = 2 ∧ latest.height = 6 ∧
      ∃ s f, Running.Reachable false threeOfSix (threeOfSix.plan (latestAfter 2) .latestData)
        "task-1" s ∧ s.hasEnded = true ∧ s.range = some f ∧ f.asked = [4, 5, 6] := by
  have hq : payload (latestAfter 2) LatestDataRequest.ofJson = .ok ⟨2, ""⟩ := rfl
  have hb : threeOfSix.chain.block 0 = .ok _ := rfl
  have hl : (2 : Nat) < Text.maxWord64 := by decide
  have hh : (6 : Nat) < Text.maxWord64 := by decide
  obtain ⟨hs, hf, hm, ascending, _⟩ := latestData_fetches threeOfSix rfl hq hb hl hh
  obtain rfl : hs = [4, 5, 6] := by
    refine ascending.eq_of_mem_iff (by decide) fun h => (hm h).trans ?_
    change 1 ≤ h ∧ 2 < h ∧ (6 : Int) - 3 < h ∧ h ≤ 6 ↔ _
    simp only [List.mem_cons, List.not_mem_nil, or_false]
    omega
  have ok : ∀ h ∈ [4, 5, 6], ∃ a, threeOfSix.chain.fetch threeOfSix.pool h = .ok a := by
    intro h hm
    simp only [List.mem_cons, List.not_mem_nil, or_false] at hm
    rcases hm with rfl | rfl | rfl
    all_goals exact ⟨_, rfl⟩
  obtain ⟨s, hs, ended⟩ := hf.ends
  obtain ⟨f, range, _, all⟩ := hf.whole s hs ended
  exact ⟨_, _, rfl, hq, hb, hl, hh, rfl, rfl, s, f, hs, ended, range, (all ok).1⟩

end ChainIndexer.Tasks
