import ChainIndexer.Proofs.Range.Crew

/-
  A pipeline does not run ahead of its consumer.

  A height gets its order before its job, and its order leaves the queue only for the supervisor. So
  every height that was ever ordered is received, or in the output, or with the supervisor, or its
  order is still in the queue (`spaced_step`). The queues are bounded, and so is the lead over the
  consumer. Nor do the workers fetch more heights at once than there are of them
  (`bounded_lead`).
-/

namespace ChainIndexer.Range.Pipeline

variable {α : Type} {w : Nat} {fetch : Nat → Except Error α} {r : HeightRange} {s t : Pipeline α}
  {a : Action}

/-! ## Heights on their way -/

/-- The number of heights for which there was ever an order. -/
def ordered (s : Pipeline α) : Nat :=
  s.asked.length + s.jobs.length + s.handing.toList.length

/-- The number of heights of which the supervisor has the order or the result. -/
def Supervisor.held : Supervisor α → Nat
  | .idle => 0
  | .awaiting _ => 1
  | .holding _ => 1
  | .leaving => 1
  | .gone => 1

/-- The number of results between the supervisor and the consumer, with as many as there may be
once the consumer has broken off and they are lost. -/
def passing (w : Nat) (s : Pipeline α) : Nat :=
  if s.cancelled then w else s.output.length

/-- The queues have room for what is in them, and the heights between the producer and the consumer
are in them or with the supervisor. -/
structure Spaced (w : Nat) (s : Pipeline α) : Prop where
  orders : s.orders.length ≤ 2 * w
  output : s.output.length ≤ w
  lead : s.ordered ≤
    s.received.length + s.passing w + Supervisor.held s.supervisor + s.orders.length

theorem spaced_start (w : Nat) (r : HeightRange) : Spaced w (start r : Pipeline α) :=
  ⟨Nat.zero_le _, Nat.zero_le _, Nat.zero_le _⟩

theorem held_le (u : Supervisor α) : Supervisor.held u ≤ 1 := by
  cases u <;> simp [Supervisor.held]

theorem spaced_step (h : s.step w fetch a = some t) (hi : Spaced w s) : Spaced w t := by
  obtain ⟨ho, hp, hl⟩ := hi
  unfold ordered passing at hl
  cases moves_of_step h with
  | order running free more room =>
    refine ⟨?_, hp, ?_⟩
    · rw [List.length_append, List.length_singleton]
      omega
    · rw [free] at hl
      simp only [ordered, passing, List.length_append, List.length_singleton, Option.toList,
        List.length_nil] at hl ⊢
      omega
  | hand running handing room =>
    refine ⟨ho, hp, ?_⟩
    rw [handing] at hl
    simp only [ordered, passing, List.length_append, List.length_singleton, Option.toList,
      List.length_nil] at hl ⊢
    omega
  | take running jobs idle =>
    refine ⟨ho, hp, ?_⟩
    rw [jobs] at hl
    simp only [ordered, passing, List.length_append, List.length_cons, List.length_nil] at hl ⊢
    omega
  | finish running busy => exact ⟨ho, hp, hl⟩
  | await idle orders =>
    rw [orders, List.length_cons] at ho
    refine ⟨Nat.le_of_succ_le ho, hp, ?_⟩
    rw [idle, orders] at hl
    simp only [ordered, passing, Supervisor.held, List.length_cons] at hl ⊢
    omega
  | collect awaiting cell =>
    rw [awaiting] at hl
    exact ⟨ho, hp, hl⟩
  | discard holding cancelled =>
    rw [holding] at hl
    exact ⟨ho, hp, hl⟩
  | @deliver item holding wanted room =>
    refine ⟨ho, ?_, ?_⟩
    · rw [List.length_append, List.length_singleton]
      exact room
    · rw [holding, wanted] at hl
      simp only [ordered, passing, wanted, Supervisor.held, List.length_append,
        List.length_singleton, Bool.false_eq_true, if_false] at hl ⊢
      omega
  | leave idle orders free done =>
    refine ⟨ho, hp, ?_⟩
    rw [idle] at hl
    simp only [ordered, passing, Supervisor.held] at hl ⊢
    omega
  | halt running ends =>
    have hu := held_le s.supervisor
    have hg : Supervisor.held (.gone : Supervisor α) = 1 := rfl
    refine ⟨ho, hp, ?_⟩
    simp only [ordered, passing, hg] at hl ⊢
    omega
  | receive output =>
    rw [output, List.length_cons] at hp
    refine ⟨ho, Nat.le_of_succ_le hp, ?_⟩
    rw [output] at hl
    simp only [ordered, passing, List.length_append, List.length_cons, List.length_nil] at hl ⊢
    split at hl
    · rename_i hc
      rw [if_pos hc]
      omega
    · rename_i hc
      rw [if_neg hc]
      omega
  | cancel wanted =>
    refine ⟨ho, Nat.zero_le w, ?_⟩
    rw [wanted] at hl
    simp only [ordered, passing, Bool.false_eq_true, if_false, if_true] at hl ⊢
    omega

theorem spaced_of_reachable (h : Reachable w fetch r s) : Spaced w s := by
  induction h with
  | start => exact spaced_start w r
  | step before now ih => exact spaced_step now ih

/-- The lead over the consumer is bounded by the room in the queues and the one result that the
supervisor has. -/
theorem ordered_le (hi : Spaced w s) : s.ordered ≤ s.received.length + (3 * w + 1) := by
  have hu := held_le s.supervisor
  have hp : s.passing w ≤ w := by
    unfold passing
    split
    · exact Nat.le_refl w
    · exact hi.output
  have ho := hi.orders
  have hl := hi.lead
  omega

/-- The workers have a hand each. -/
theorem busy_le (h : Reachable w fetch r s) : s.busy.length ≤ w := by
  obtain ⟨c, hc, rfl⟩ := Crew.exists_crew h
  have hi := Crew.manned_of_reachable hc
  rw [hi.busy.length_eq, ← hi.count]
  exact List.length_filterMap_le _ _

theorem workers_of_le {n : Nat} (hl : minWorkers ≤ n) (hu : n ≤ maxWorkers) : workers n = n := by
  unfold workers
  omega

/-- With any number of workers, between 5 and 20 of them, and in any order of actions, no more
heights are being fetched at once than there are workers. The heights that were ever given to
workers, even with those whose jobs still wait for one, are at most three times the workers and one
more than the results that the consumer has received. -/
theorem bounded_lead (n : Nat) (h : Reachable (workers n) fetch r s) :
    (5 ≤ workers n ∧ workers n ≤ 20 ∧ (5 ≤ n → n ≤ 20 → workers n = n)) ∧
      s.busy.length ≤ workers n ∧
      s.asked.length + s.jobs.length + s.handing.toList.length ≤
        s.received.length + (3 * workers n + 1) := by
  refine ⟨⟨?_, ?_, workers_of_le⟩, busy_le h, ordered_le (spaced_of_reachable h)⟩
  · exact Nat.le_max_left _ _
  · unfold workers minWorkers maxWorkers
    omega

/-- A run in which every height is fetched at once while the consumer takes nothing, until there is
no more room for results or orders. -/
def unread : List Action :=
  ((List.range' 1 5).flatMap fun h =>
      [.order, .hand, .take, .finish h, .await, .collect, .deliver]) ++
    [.order, .hand, .take, .finish 6, .await, .collect] ++
    (List.range' 7 10).flatMap fun h => [.order, .hand, .take, .finish h]

theorem bounded_lead_unread :
    ∃ s : Pipeline Unit, Reachable (workers 0) (fun _ => .ok ()) ⟨1, 100⟩ s ∧
      s.asked = List.range' 1 16 ∧ s.received = [] ∧ 3 * workers 0 + 1 = 16 ∧
      s.asked.length + s.jobs.length + s.handing.toList.length ≤
        s.received.length + (3 * workers 0 + 1) := by
  have hp : (play (workers 0) (fun _ => .ok ()) unread (start ⟨1, 100⟩ : Pipeline Unit)).isSome =
      true := rfl
  obtain ⟨s, hs⟩ := Option.isSome_iff_exists.1 hp
  have hr := reachable_of_play .start hs
  obtain rfl := (Option.some.inj hs).symm
  exact ⟨_, hr, rfl, rfl, rfl, (bounded_lead 0 hr).2.2⟩

end ChainIndexer.Range.Pipeline
