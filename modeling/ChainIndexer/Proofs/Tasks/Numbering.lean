import ChainIndexer.Proofs.Tasks.Ending

/-
  The numbers of the responses that a consumer receives.

  A response takes the next number before it waits for room, and is lost if the timer strikes while
  it waits. The timer strikes at most once, so the numbers that were sent are those from 0 on with
  at most one left out (`Counted`); a consumer of any speed receives a beginning of them, each once
  and in ascending order (`received_numbers`). None is left out if nothing waits when the timer
  strikes, and so none for a prompt consumer (`dispatch_orders`). But a consumer that is slow enough
  for the channel to fill up does miss one (`skips_of_room_lt`).
-/

namespace ChainIndexer.Tasks

namespace Stream

variable {s t s₀ : Stream} {a : Action}

/-! ## Numbers that were sent -/

/-- The numbers below `order` except the lost one. -/
def numbersBut (lost : Option Nat) (order : Nat) : List Nat :=
  (List.range order).filter fun n => some n ≠ lost

theorem numbersBut_none (order : Nat) : numbersBut none order = List.range order := by
  unfold numbersBut
  rw [List.filter_eq_self]
  intro n _
  rfl

theorem numbersBut_succ {lost : Option Nat} {order : Nat} (h : lost ≠ some order) :
    numbersBut lost (order + 1) = numbersBut lost order ++ [order] := by
  unfold numbersBut
  rw [List.range_succ, List.filter_append, List.filter_cons_of_pos (by simpa using h.symm)]
  rfl

theorem numbersBut_lost (order : Nat) : numbersBut (some order) (order + 1) = List.range order := by
  unfold numbersBut
  rw [List.range_succ, List.filter_append, List.filter_cons_of_neg (by simp), List.filter_nil,
    List.append_nil, List.filter_eq_self]
  intro n hn
  have hlt := List.mem_range.1 hn
  simpa using Nat.ne_of_lt hlt

theorem ascending_numbersBut (lost : Option Nat) (order : Nat) :
    (numbersBut lost order).Pairwise (· < ·) :=
  List.Pairwise.filter _ List.pairwise_lt_range

/-- The numbers that were sent are those below the next one except the lost one, which the timer
may have struck. -/
structure Counted (lost : Option Nat) (s : Stream) : Prop where
  numbers : s.sent.map (·.order) = numbersBut lost s.order
  below : ∀ n, lost = some n → n < s.order
  unstruck : s.stage = .working → lost = none

/-- A stream that has sent nothing. -/
def IsFresh (s : Stream) : Prop :=
  s.order = 0 ∧ s.sent = []

theorem isFresh_start (id : String) (c : Course) : IsFresh (start id c) :=
  ⟨rfl, rfl⟩

theorem isFresh_refused (id text : String) : IsFresh (refused id text) :=
  ⟨rfl, rfl⟩

theorem counted_of_isFresh (h : s.IsFresh) : Counted none s := by
  refine ⟨?_, nofun, fun _ => rfl⟩
  rw [h.1, h.2]
  rfl

/-! ## What every action keeps -/

variable {lost : Option Nat}

theorem counted_congr (hs : t.sent = s.sent) (ho : t.order = s.order)
    (hg : t.stage = .working → s.stage = .working) (hi : Counted lost s) : Counted lost t := by
  refine ⟨?_, ?_, fun h => hi.unstruck (hg h)⟩
  · rw [hs, ho]
    exact hi.numbers
  · rw [ho]
    exact hi.below

theorem counted_propose {r : TaskResponse} (free : t.waiting = none) (hs : t.sent = s.sent)
    (ho : t.order = s.order) (hg : t.stage = .working → s.stage = .working)
    (hr : r.order = s.order) (hi : Counted lost s) : Counted lost (t.propose r) := by
  have hn : lost ≠ some s.order := fun h => Nat.lt_irrefl _ (hi.below _ h)
  have hp : (t.propose r).order = s.order + 1 := congrArg (· + 1) ho
  refine ⟨?_, ?_, fun h => hi.unstruck (hg h)⟩
  · rw [sent_propose free, hs, hp, List.map_append, hi.numbers, numbersBut_succ hn, ← hr]
    rfl
  · intro n h
    have hlt := hi.below n h
    omega

/-- Every action keeps the numbers, unless the timer strikes while a response waits. -/
theorem counted_step (h : s.step a = some t) (kept : a = .expire → s.waiting = none)
    (hi : Counted lost s) : Counted lost t := by
  cases moves_of_step h with
  | data free working more => exact counted_propose (s := s) free rfl rfl (fun h => h) rfl hi
  | fail free failing => exact counted_propose (s := s) free rfl rfl nofun rfl hi
  | finish free ending => exact counted_propose (s := s) free rfl rfl nofun rfl hi
  | push waiting room => exact counted_congr (sent_push waiting) rfl (fun h => h) hi
  | conclude free working done =>
    exact counted_congr (s := s) rfl rfl (fun _ => working) hi
  | expire working =>
    refine counted_congr (s := s) ?_ rfl (fun _ => working) hi
    unfold sent
    rw [kept rfl]
  | receive channel => exact counted_congr (sent_receive channel) rfl (fun h => h) hi

/-- A response that waits when the timer strikes is the last one that was numbered. -/
theorem counted_expire {r : TaskResponse} (h : s.step .expire = some t) (waits : s.waiting = some r)
    (hi : Counted lost s) : s.order = r.order + 1 ∧ Counted (some r.order) t := by
  obtain ⟨working, rfl⟩ : s.stage = .working ∧
      t = { s with rest := [], waiting := none, stage := .failing .elapsed } := by
    cases moves_of_step h with
    | expire working => exact ⟨working, rfl⟩
  have hn := hi.numbers
  rw [hi.unstruck working, numbersBut_none] at hn
  unfold sent at hn
  simp only [waits, Option.toList, List.map_append, List.map_cons, List.map_nil] at hn
  have hl := congrArg List.length hn
  simp only [List.length_append, List.length_map, List.length_singleton, List.length_range] at hl
  rw [← hl, List.range_succ] at hn
  obtain ⟨hs, hr⟩ := List.append_inj' hn rfl
  have ho : r.order = s.received.length + s.channel.length := (List.cons.inj hr).1
  refine ⟨by omega, ?_, ?_, nofun⟩
  · have hx : s.order = r.order + 1 := by omega
    rw [hx, numbersBut_lost, ho, ← hs]
    simp only [sent, Option.toList, List.append_nil, List.map_append]
  · intro n hn
    obtain rfl := Option.some.inj hn
    change r.order < s.order
    omega

/-! ## Runs -/

/-- The streams that can come about when no response waits while the timer strikes. -/
inductive Unlost (s₀ : Stream) : Stream → Prop
  | start : Unlost s₀ s₀
  | step {s t : Stream} {a : Action} (before : Unlost s₀ s) (now : s.step a = some t)
      (kept : a = .expire → s.waiting = none) : Unlost s₀ t

theorem counted_of_unlost (h : Unlost s₀ s) (fresh : s₀.IsFresh) : Counted none s := by
  induction h with
  | start => exact counted_of_isFresh fresh
  | step before now kept ih => exact counted_step now kept ih

theorem counted_of_reachable (h : Reachable s₀ s) (fresh : s₀.IsFresh) :
    ∃ lost, Counted lost s := by
  induction h with
  | start => exact ⟨none, counted_of_isFresh fresh⟩
  | @step s t a before now ih =>
    obtain ⟨lost, hi⟩ := ih
    by_cases hk : a = .expire → s.waiting = none
    · exact ⟨lost, counted_step now hk hi⟩
    · rw [Classical.not_imp] at hk
      obtain ⟨rfl, hw⟩ := hk
      obtain ⟨r, hr⟩ := Option.ne_none_iff_exists'.1 hw
      exact ⟨some r.order, (counted_expire now hr hi).2⟩

theorem received_begins_sent (s : Stream) :
    s.received.map (·.order) <+: s.sent.map (·.order) := by
  unfold sent
  rw [List.append_assoc, List.map_append]
  exact List.prefix_append _ _

theorem received_of_counted (hi : Counted lost s) :
    s.received.map (·.order) <+: numbersBut lost s.order := by
  rw [← hi.numbers]
  exact received_begins_sent s

theorem received_of_unlost (h : Unlost s₀ s) (fresh : s₀.IsFresh) :
    s.received.map (·.order) = List.range s.received.length := by
  have hp := received_of_counted (counted_of_unlost h fresh)
  rw [numbersBut_none] at hp
  have hl := hp.length_le
  rw [List.length_map, List.length_range] at hl
  rw [List.prefix_iff_eq_take.1 hp, List.length_map, List.take_range, Nat.min_eq_left hl]

/-! ## Prompt consumers -/

theorem firstStep_of_none {as : List Action} (h : s.step a = none) :
    s.firstStep (a :: as) = s.firstStep as := by
  rw [firstStep, h]

theorem firstStep_of_some {as : List Action} (h : s.step a = some t) :
    s.firstStep (a :: as) = some t := by
  rw [firstStep, h]

/-- When the timer strikes for a prompt consumer, nothing waits. -/
theorem kept_of_firstStep {isCut : Bool} (h : s.firstStep (promptly isCut) = some t) :
    ∃ a, s.step a = some t ∧ (a = .expire → s.waiting = none) := by
  unfold promptly at h
  cases receive : s.step .receive with
  | some u =>
    rw [firstStep_of_some receive] at h
    exact ⟨.receive, receive.trans h, nofun⟩
  | none =>
    cases push : s.step .push with
    | some u =>
      rw [firstStep_of_none receive, firstStep_of_some push] at h
      exact ⟨.push, push.trans h, nofun⟩
    | none =>
      obtain ⟨a, _, now⟩ := step_of_firstStep h
      exact ⟨a, now, fun _ => (free_of_stuck receive push).2⟩

theorem unlost_advanceBy (isCut : Bool) (n : Nat) (h : Unlost s₀ s) :
    Unlost s₀ (advanceBy isCut n s) := by
  induction n generalizing s with
  | zero => exact h
  | succ n ih =>
    unfold advanceBy
    cases hf : s.firstStep (promptly isCut) with
    | none => exact h
    | some t =>
      obtain ⟨a, now, kept⟩ := kept_of_firstStep hf
      exact ih (.step h now kept)

theorem orders_responses (isCut : Bool) (fresh : s.IsFresh) :
    (s.responses isCut).map (·.order) = List.range (s.responses isCut).length :=
  received_of_unlost (unlost_advanceBy isCut s.work .start) fresh

/-! ## Slow consumers -/

/-- A consumer may take everything that is in the channel. -/
theorem reachable_drained (h : Reachable s₀ s) :
    Reachable s₀ { s with channel := [], received := s.received ++ s.channel } := by
  induction hc : s.channel generalizing s with
  | nil =>
    rw [List.append_nil, ← hc]
    exact h
  | cons r rest ih =>
    have hs : s.step .receive = some { s with channel := rest, received := s.received ++ [r] } := by
      simp only [step, hc]
    have ht := ih (.step h hs) rfl
    rwa [List.append_assoc] at ht

theorem step_produce {b : Body} {rest : List Body} (free : s.waiting = none)
    (working : s.stage = .working) (more : s.rest = b :: rest) : s.step .produce =
      some ({ s with rest := rest }.propose (s.numbered b.kind.name b.payload none false)) := by
  simp only [step, free, working, more]

theorem step_expire (working : s.stage = .working) : s.step .expire =
    some { s with rest := [], waiting := none, stage := .failing .elapsed } := by
  simp only [step, working]

/-- While the consumer takes nothing, the channel fills up with data. -/
theorem reachable_filled (id : String) (c : Course) {n : Nat} (hn : n ≤ room)
    (hl : n ≤ c.data.length) : ∃ s, Reachable (start id c) s ∧ s.stage = .working ∧
      s.waiting = none ∧ s.rest = c.data.drop n ∧ s.order = n ∧ s.received = [] ∧
      s.channel.map (·.order) = List.range n := by
  induction n with
  | zero => exact ⟨_, .start, rfl, rfl, rfl, rfl, rfl, rfl⟩
  | succ n ih =>
    obtain ⟨s, reached, working, free, more, order, received, channel⟩ :=
      ih (Nat.le_of_succ_le hn) (Nat.le_of_succ_le hl)
    rw [List.drop_eq_getElem_cons hl] at more
    have hc : s.channel.length < room := by
      have hm := congrArg List.length channel
      rw [List.length_map, List.length_range] at hm
      omega
    let r := s.numbered c.data[n].kind.name c.data[n].payload none false
    let u := { s with rest := c.data.drop (n + 1) }.propose r
    have produced : s.step .produce = some u := step_produce free working more
    have pushed : u.step .push = some { u with waiting := none, channel := s.channel ++ [r] } :=
      if_pos hc
    refine ⟨_, .step (.step reached produced) pushed, working, rfl, rfl, ?_, received, ?_⟩
    · exact congrArg (· + 1) order
    · rw [List.map_append, channel, List.range_succ]
      exact congrArg (List.range n ++ [·]) order

/-- A stream that fails may come to its end with a response about the failure and the end. -/
theorem reachable_ended {e : Error} (h : Reachable s₀ s) (failing : s.stage = .failing e)
    (free : s.waiting = none) : ∃ t, Reachable s₀ t ∧ t.hasEnded = true ∧
      t.received.map (·.order) =
        (s.received ++ s.channel).map (·.order) ++ [s.order, s.order + 1] := by
  obtain ⟨id, rest, outcome, order, waiting, stage, channel, received⟩ := s
  subst failing free
  let f : TaskResponse := ⟨id, ResponseType.error.name, order, .null, some e.message, false⟩
  let g : TaskResponse := ⟨id, endKind, order + 1, .null, none, true⟩
  have failed : Reachable s₀
      ⟨id, rest, outcome, order + 1, none, .ending none, [f], received ++ channel⟩ :=
    .step (a := .push) (.step (a := .produce) (reachable_drained h) rfl) rfl
  have ended : Reachable s₀
      ⟨id, rest, outcome, order + 2, none, .closed, [f, g], received ++ channel⟩ :=
    .step (a := .push) (.step (a := .produce) failed rfl) rfl
  exact ⟨_, reachable_drained ended, rfl, List.map_append⟩

/-- With more data than the channel has room for, a consumer may be so slow that it misses a number:
the response that waits when the timer strikes is lost, and its number is not given again. -/
theorem skips_of_room_lt (id : String) {c : Course} (h : room < c.data.length) :
    ∃ s, Reachable (start id c) s ∧ s.hasEnded = true ∧
      s.received.map (·.order) = List.range room ++ [room + 1, room + 2] := by
  obtain ⟨s, reached, working, free, more, order, received, channel⟩ :=
    reachable_filled id c (Nat.le_refl room) (Nat.le_of_lt h)
  rw [List.drop_eq_getElem_cons h] at more
  -- The channel is full, the next response waits, and the timer strikes.
  have produced := Reachable.step reached (step_produce free working more)
  have expired := Reachable.step (a := .expire) produced (step_expire working)
  obtain ⟨t, reached, ended, numbers⟩ := reachable_ended expired rfl rfl
  refine ⟨t, reached, ended, ?_⟩
  have hs : (s.received ++ s.channel).map (·.order) = List.range room := by
    rw [received, List.nil_append, channel]
  rw [numbers]
  simp only [propose, order]
  rw [hs]

end Stream

/-! ## Tasks -/

theorem isFresh_stream (d : Dispatcher) (q : TaskRequest) : (d.stream q).IsFresh := by
  unfold Dispatcher.stream
  split
  · exact Stream.isFresh_refused ..
  · exact Stream.isFresh_start ..

/-- A prompt consumer receives all numbers from 0 on, also when the timer strikes. -/
theorem dispatch_orders (d : Dispatcher) (q : TaskRequest) :
    (d.dispatch q).1.map (·.order) = List.range (d.dispatch q).1.length := by
  unfold Dispatcher.dispatch
  split
  · exact Stream.orders_responses _ (Stream.isFresh_refused ..)
  · exact Stream.orders_responses _ (Stream.isFresh_start ..)

/-- Whenever the consumer takes responses and the timer strikes, the consumer has received a
beginning of the numbers from 0 on of which at most one is left out. So no number comes twice, and
none is left out if no response waited for room when the timer struck. -/
theorem received_numbers (d : Dispatcher) (q : TaskRequest) {s : Stream}
    (h : Stream.Reachable (d.stream q) s) :
    (∃ lost order, s.received.map (·.order) <+: Stream.numbersBut lost order) ∧
      (s.received.map (·.order)).Pairwise (· < ·) ∧
      (Stream.Unlost (d.stream q) s → s.received.map (·.order) = List.range s.received.length) := by
  obtain ⟨lost, hi⟩ := Stream.counted_of_reachable h (isFresh_stream d q)
  have hp := Stream.received_of_counted hi
  refine ⟨⟨lost, s.order, hp⟩, ?_, fun hu => Stream.received_of_unlost hu (isFresh_stream d q)⟩
  exact (Stream.ascending_numbersBut lost s.order).sublist hp.sublist

/-- A request for more heights than the channel has room for. -/
def manyHeights : TaskRequest :=
  ⟨"task-1", "GetTransactions", .object [("end_height", .nat 66), ("start_height", .nat 1)]⟩

/-- The stream of which a prompt consumer has received two responses. -/
def twoReceived : Stream :=
  .advanceBy false 6 (shortChain.stream manyHeights)

theorem received_numbers_twoReceived : twoReceived.received.length = 2 ∧
    (twoReceived.received.map (·.order)).Pairwise (· < ·) :=
  ⟨by decide +kernel,
    (received_numbers shortChain manyHeights (Stream.reachable_advanceBy false 6 .start)).2.1⟩

theorem skips_manyHeights : ∃ s, Stream.Reachable (shortChain.stream manyHeights) s ∧
    s.hasEnded = true ∧ s.received.map (·.order) ≠ List.range s.received.length := by
  have hd : shortChain.stream manyHeights =
      .start "task-1" ((shortChain.plan manyHeights .transactions).course shortChain) := rfl
  have hl : Stream.room <
      ((shortChain.plan manyHeights .transactions).course shortChain).data.length := by
    decide +kernel
  obtain ⟨s, reached, ended, numbers⟩ := Stream.skips_of_room_lt "task-1" hl
  refine ⟨s, hd ▸ reached, ended, fun hr => ?_⟩
  have hn := congrArg List.length numbers
  rw [List.length_map] at hn
  rw [numbers, hn] at hr
  exact absurd hr (by decide)

end ChainIndexer.Tasks
