import ChainIndexer.Proofs.Range.Moves

/-
  A pipeline never gets stuck.

  The supervisor waits for the height of an order, and will wait for those of the orders in the
  queue. Each of these heights is `Located`: its cell is filled, or its job is in the job queue, in
  a worker's hands, or the one that the producer holds. Every action keeps this (`traced_step`). So
  when the supervisor waits, somebody can do something about it, and when it does not, it can go on
  itself or the consumer can (`goesOn`).
-/

namespace ChainIndexer.Range.Pipeline

variable {α : Type} {w : Nat} {fetch : Nat → Except Error α} {r : HeightRange} {s t : Pipeline α}
  {a : Action}

/-! ## Where heights are -/

/-- The height for which a supervisor waits. -/
def Supervisor.awaited? : Supervisor α → Option Nat
  | .awaiting h => some h
  | _ => none

/-- The heights for which the supervisor waits or will wait. -/
def pending (s : Pipeline α) : List Nat :=
  (Supervisor.awaited? s.supervisor).toList ++ s.orders

/-- Where the job of a height is, or its result. -/
inductive Located (s : Pipeline α) (h : Nat) : Prop
  | filled {result : Except Error α} (cell : s.cells.lookup h = some result)
  | queued (job : h ∈ s.jobs)
  | fetching (busy : h ∈ s.busy)
  | handing (hand : s.handing = some h)

/-- No height is lost for which the supervisor waits or will wait. -/
structure Traced (s : Pipeline α) : Prop where
  located : ∀ h ∈ s.pending, s.Located h
  ascending : s.pending.Pairwise (· < ·)
  below : ∀ h ∈ s.pending, h < s.next

theorem traced_start (r : HeightRange) : Traced (start r : Pipeline α) :=
  ⟨nofun, .nil, nofun⟩

/-- An action that makes no order keeps it if it loses none of the heights. -/
theorem traced_of_sublist (hi : Traced s) (hp : List.Sublist t.pending s.pending)
    (hn : t.next = s.next) (hl : ∀ h ∈ t.pending, s.Located h → t.Located h) : Traced t := by
  refine ⟨?_, hi.ascending.sublist hp, ?_⟩
  · intro h hm
    exact hl h hm (hi.located h (hp.subset hm))
  · intro h hm
    rw [hn]
    exact hi.below h (hp.subset hm)

/-- What is located stays so when jobs, cells and the producer's hand stay as they are. -/
theorem located_congr {h : Nat} (hc : t.cells = s.cells) (hj : t.jobs = s.jobs)
    (hb : t.busy = s.busy) (hh : t.handing = s.handing) (hl : s.Located h) : t.Located h := by
  cases hl with
  | filled cell => exact .filled (hc ▸ cell)
  | queued job => exact .queued (hj ▸ job)
  | fetching busy => exact .fetching (hb ▸ busy)
  | handing hand => exact .handing (hh ▸ hand)

theorem lookup_takeCell {x h : Nat} (cells : List (Nat × Except Error α)) (hx : x ≠ h) :
    (takeCell h cells).lookup x = cells.lookup x := by
  unfold takeCell
  induction cells with
  | nil => rfl
  | cons c cells ih =>
    by_cases hc : c.1 = h
    · have hn : (x == c.1) = false := beq_false_of_ne (hc ▸ hx)
      rw [List.filter_cons_of_neg (by simp [hc]), ih, List.lookup_cons, hn]
    · rw [List.filter_cons_of_pos (by simp [hc]), List.lookup_cons, List.lookup_cons, ih]

/-- A result that comes in fills a cell and empties none. -/
theorem exists_lookup_append (cells : List (Nat × Except Error α)) (h : Nat)
    (result : Except Error α) :
    ∃ found, (cells ++ [(h, result)]).lookup h = some found := by
  refine Option.isSome_iff_exists.1 (List.lookup_isSome_iff.2 ⟨(h, result), ?_, ?_⟩)
  · exact List.mem_append_right _ (List.mem_singleton_self _)
  · exact beq_self_eq_true h

theorem traced_step (h : s.step w fetch a = some t) (hi : Traced s) : Traced t := by
  cases moves_of_step h with
  | order running free more room =>
    -- The new height is in the producer's hand, which was free, and above all the others.
    have hp : s.pending ++ [s.next] = pending { s with
        next := s.next + 1, handing := some s.next, orders := s.orders ++ [s.next] } :=
      List.append_assoc _ _ _
    refine ⟨?_, ?_, ?_⟩
    · rw [← hp]
      intro x hx
      rcases List.mem_append.1 hx with hx | hx
      · cases hi.located x hx with
        | filled cell => exact .filled cell
        | queued job => exact .queued job
        | fetching busy => exact .fetching busy
        | handing hand => exact absurd hand (by rw [free]; simp)
      · rw [List.mem_singleton.1 hx]
        exact .handing rfl
    · rw [← hp, List.pairwise_append]
      refine ⟨hi.ascending, List.pairwise_singleton _ _, ?_⟩
      intro x hx y hy
      rw [List.mem_singleton.1 hy]
      exact hi.below x hx
    · rw [← hp]
      intro x hx
      rcases List.mem_append.1 hx with hx | hx
      · exact Nat.lt_succ_of_lt (hi.below x hx)
      · rw [List.mem_singleton.1 hx]
        exact Nat.lt_succ_self s.next
  | @hand x running handing room =>
    refine traced_of_sublist hi (.refl _) rfl ?_
    intro y _ hl
    cases hl with
    | filled cell => exact .filled cell
    | queued job => exact .queued (List.mem_append_left _ job)
    | fetching busy => exact .fetching busy
    | handing hand =>
      obtain rfl := Option.some.inj (handing.symm.trans hand)
      exact .queued (List.mem_append_right _ (List.mem_singleton_self x))
  | @take x rest running jobs idle =>
    refine traced_of_sublist hi (.refl _) rfl ?_
    intro y _ hl
    cases hl with
    | filled cell => exact .filled cell
    | queued job =>
      rw [jobs] at job
      rcases List.mem_cons.1 job with rfl | job
      · exact .fetching (List.mem_append_right _ (List.mem_singleton_self y))
      · exact .queued job
    | fetching busy => exact .fetching (List.mem_append_left _ busy)
    | handing hand => exact .handing hand
  | @finish x running busy =>
    refine traced_of_sublist hi (.refl _) rfl ?_
    intro y _ hl
    by_cases hx : y = x
    · subst hx
      obtain ⟨found, hf⟩ := exists_lookup_append s.cells y (fetch y)
      exact .filled hf
    · cases hl with
      | filled cell => exact .filled (List.lookup_append.trans (by rw [cell]; rfl))
      | queued job => exact .queued job
      | fetching busy => exact .fetching ((List.mem_erase_of_ne hx).2 busy)
      | handing hand => exact .handing hand
  | @await x rest idle orders =>
    have hp : pending { s with supervisor := .awaiting x, orders := rest } = s.pending := by
      unfold pending
      rw [idle, orders]
      rfl
    exact traced_of_sublist hi (hp ▸ .refl _) rfl fun _ _ => located_congr rfl rfl rfl rfl
  | @collect x res awaiting cell =>
    -- The cell that is emptied belongs to the height that is no longer waited for.
    have hp : s.pending = x :: s.orders := by
      unfold pending
      rw [awaiting]
      rfl
    refine traced_of_sublist hi (hp ▸ List.sublist_cons_self x s.orders) rfl ?_
    intro y hy hl
    have hlt : x < y := List.rel_of_pairwise_cons (hp ▸ hi.ascending) hy
    cases hl with
    | filled cell => exact .filled ((lookup_takeCell s.cells (Nat.ne_of_gt hlt)).trans cell)
    | queued job => exact .queued job
    | fetching busy => exact .fetching busy
    | handing hand => exact .handing hand
  | discard holding cancelled =>
    exact traced_of_sublist hi (List.sublist_append_right _ _) rfl
      fun _ _ => located_congr rfl rfl rfl rfl
  | @deliver item holding wanted room =>
    have hn : Supervisor.awaited? (afterItem item) = none := by cases item <;> rfl
    refine traced_of_sublist hi ?_ rfl fun _ _ => located_congr rfl rfl rfl rfl
    unfold pending
    rw [hn]
    exact List.sublist_append_right _ _
  | leave idle orders free done =>
    exact traced_of_sublist hi (List.sublist_append_right _ _) rfl
      fun _ _ => located_congr rfl rfl rfl rfl
  | halt running ends =>
    exact traced_of_sublist hi (List.sublist_append_right _ _) rfl
      fun _ _ => located_congr rfl rfl rfl rfl
  | receive output =>
    exact traced_of_sublist hi (.refl _) rfl fun _ _ => located_congr rfl rfl rfl rfl
  | cancel wanted =>
    exact traced_of_sublist hi (.refl _) rfl fun _ _ => located_congr rfl rfl rfl rfl

theorem traced_of_reachable (h : Reachable w fetch r s) : Traced s := by
  induction h with
  | start => exact traced_start r
  | step before now ih => exact traced_step now ih

/-! ## Who can go on -/

/-- Something can happen that the consumer does not have to break off for. -/
def GoesOn (w : Nat) (fetch : Nat → Except Error α) (s : Pipeline α) : Prop :=
  ∃ a t, a ≠ .cancel ∧ s.step w fetch a = some t

theorem goesOn_of_moves (h : Moves w fetch s a t) (ha : a ≠ .cancel) : GoesOn w fetch s :=
  ⟨a, t, ha, step_of_moves h⟩

/-- A worker that fetches can finish. -/
theorem goesOn_of_busy {h : Nat} (hr : s.isRunning = true) (hb : h ∈ s.busy) :
    GoesOn w fetch s :=
  goesOn_of_moves (.finish hr hb) nofun

/-- A job can be taken, or all workers fetch. -/
theorem goesOn_of_jobs {h : Nat} (hw : 0 < w) (hr : s.isRunning = true) (hj : h ∈ s.jobs) :
    GoesOn w fetch s := by
  by_cases hl : s.busy.length < w
  · obtain ⟨x, rest, hx⟩ := List.exists_cons_of_ne_nil (List.ne_nil_of_mem hj)
    exact goesOn_of_moves (.take hr hx hl) nofun
  · obtain ⟨x, hx⟩ := List.exists_mem_of_length_pos (Nat.lt_of_lt_of_le hw (Nat.le_of_not_lt hl))
    exact goesOn_of_busy hr hx

/-- The producer can put its job into the queue, or the queue is full of jobs. -/
theorem goesOn_of_handing {h : Nat} (hw : 0 < w) (hr : s.isRunning = true)
    (hh : s.handing = some h) : GoesOn w fetch s := by
  by_cases hl : s.jobs.length < w
  · exact goesOn_of_moves (.hand hr hh hl) nofun
  · obtain ⟨x, hx⟩ := List.exists_mem_of_length_pos (Nat.lt_of_lt_of_le hw (Nat.le_of_not_lt hl))
    exact goesOn_of_jobs hw hr hx

/-- A supervisor that waits has its result, or somebody can work on it. -/
theorem goesOn_of_located {h : Nat} (hw : 0 < w) (hs : s.supervisor = .awaiting h)
    (hl : s.Located h) : GoesOn w fetch s := by
  have hr : s.isRunning = true := (isRunning_iff s).2 (by rw [hs]; nofun)
  cases hl with
  | filled cell => exact goesOn_of_moves (.collect hs cell) nofun
  | queued job => exact goesOn_of_jobs hw hr job
  | fetching busy => exact goesOn_of_busy hr busy
  | handing hand => exact goesOn_of_handing hw hr hand

/-- A supervisor with nothing to do takes an order, leaves, or the producer can go on. -/
theorem goesOn_of_idle (hw : 0 < w) (hs : s.supervisor = .idle) : GoesOn w fetch s := by
  have hr : s.isRunning = true := (isRunning_iff s).2 (by rw [hs]; nofun)
  cases ho : s.orders with
  | cons h rest => exact goesOn_of_moves (.await hs ho) nofun
  | nil =>
    cases hh : s.handing with
    | some h => exact goesOn_of_handing hw hr hh
    | none =>
      by_cases hm : s.next < s.stop
      · have hl : s.orders.length < 2 * w := by
          rw [ho, List.length_nil]
          omega
        exact goesOn_of_moves (.order hr hh hm hl) nofun
      · exact goesOn_of_moves (.leave hs ho hh (Nat.le_of_not_lt hm)) nofun

/-- As long as the consumer has not seen the end, something can happen. -/
theorem goesOn (hw : 0 < w) (hi : Traced s) (he : s.hasEnded = false) : GoesOn w fetch s := by
  cases ho : s.output with
  | cons item rest => exact goesOn_of_moves (.receive ho) nofun
  | nil =>
    have hr : s.isRunning = true := by simpa [hasEnded, ho] using he
    cases hs : s.supervisor with
    | idle => exact goesOn_of_idle hw hs
    | awaiting h =>
      have hm : h ∈ s.pending := by
        unfold pending
        rw [hs]
        exact List.mem_cons_self
      exact goesOn_of_located hw hs (hi.located h hm)
    | holding item =>
      by_cases hc : s.cancelled = true
      · exact goesOn_of_moves (.discard hs hc) nofun
      · have hl : s.output.length < w := by
          rw [ho]
          exact hw
        exact goesOn_of_moves (.deliver hs (Bool.eq_false_iff.2 hc) hl) nofun
    | leaving => exact goesOn_of_moves (.halt hr (.inl hs)) nofun
    | gone => exact absurd hs ((isRunning_iff s).1 hr)

theorem workers_pos (n : Nat) : 0 < workers n := by
  unfold workers minWorkers
  omega

end ChainIndexer.Range.Pipeline
