import ChainIndexer.Range.Pipeline

/-
  The actions of a pipeline, one by one.

  `Moves` says of each action what it needs and what it changes. It holds exactly where `step` gives
  a state (`step_eq_some_iff`), so that facts about what a step keeps go through the cases of
  `Moves` and never open `step`. With every action some of the work that is left goes away
  (`work_step`).
-/

namespace ChainIndexer.Range.Pipeline

variable {α : Type} {w : Nat} {fetch : Nat → Except Error α} {s t : Pipeline α} {a : Action}

/-- An action with what it needs, and the state after it. -/
inductive Moves (w : Nat) (fetch : Nat → Except Error α) (s : Pipeline α) :
    Action → Pipeline α → Prop
  | order (running : s.isRunning = true) (free : s.handing = none) (more : s.next < s.stop)
      (room : s.orders.length < 2 * w) :
      Moves w fetch s .order
        { s with next := s.next + 1, handing := some s.next, orders := s.orders ++ [s.next] }
  | hand {h : Nat} (running : s.isRunning = true) (handing : s.handing = some h)
      (room : s.jobs.length < w) :
      Moves w fetch s .hand { s with handing := none, jobs := s.jobs ++ [h] }
  | take {h : Nat} {rest : List Nat} (running : s.isRunning = true) (jobs : s.jobs = h :: rest)
      (idle : s.busy.length < w) :
      Moves w fetch s .take
        { s with jobs := rest, busy := s.busy ++ [h], asked := s.asked ++ [h] }
  | finish {h : Nat} (running : s.isRunning = true) (busy : h ∈ s.busy) :
      Moves w fetch s (.finish h)
        { s with busy := s.busy.erase h, cells := s.cells ++ [(h, fetch h)] }
  | await {h : Nat} {rest : List Nat} (idle : s.supervisor = .idle)
      (orders : s.orders = h :: rest) :
      Moves w fetch s .await { s with supervisor := .awaiting h, orders := rest }
  | collect {h : Nat} {r : Except Error α} (awaiting : s.supervisor = .awaiting h)
      (cell : s.cells.lookup h = some r) :
      Moves w fetch s .collect
        { s with supervisor := .holding (itemOf h r), cells := takeCell h s.cells }
  | discard {item : RangeItem α} (holding : s.supervisor = .holding item)
      (cancelled : s.cancelled = true) :
      Moves w fetch s .deliver { s with supervisor := .leaving }
  | deliver {item : RangeItem α} (holding : s.supervisor = .holding item)
      (wanted : s.cancelled = false) (room : s.output.length < w) :
      Moves w fetch s .deliver
        { s with supervisor := afterItem item, output := s.output ++ [item] }
  | leave (idle : s.supervisor = .idle) (orders : s.orders = []) (free : s.handing = none)
      (done : s.stop ≤ s.next) :
      Moves w fetch s .leave { s with supervisor := .leaving }
  | halt (running : s.isRunning = true) (ends : s.supervisor = .leaving ∨ s.cancelled = true) :
      Moves w fetch s .halt { s with supervisor := .gone }
  | receive {item : RangeItem α} {rest : List (RangeItem α)} (output : s.output = item :: rest) :
      Moves w fetch s .receive { s with output := rest, received := s.received ++ [item] }
  | cancel (wanted : s.cancelled = false) :
      Moves w fetch s .cancel { s with cancelled := true, output := [] }

theorem moves_of_step (h : s.step w fetch a = some t) : Moves w fetch s a t := by
  cases a with
  | order =>
    simp only [step] at h
    split at h
    · rename_i hc
      obtain ⟨hr, hf, hm, hl⟩ := hc
      cases h
      exact .order hr hf hm hl
    · cases h
  | hand =>
    simp only [step] at h
    split at h
    · rename_i x hx
      split at h
      · rename_i hc
        cases h
        exact .hand hc.1 hx hc.2
      · cases h
    · cases h
  | take =>
    simp only [step] at h
    split at h
    · rename_i x rest hx
      split at h
      · rename_i hc
        cases h
        exact .take hc.1 hx hc.2
      · cases h
    · cases h
  | finish x =>
    simp only [step] at h
    split at h
    · rename_i hc
      cases h
      exact .finish hc.1 hc.2
    · cases h
  | await =>
    simp only [step] at h
    split at h
    · rename_i x rest hs ho
      cases h
      exact .await hs ho
    · cases h
  | collect =>
    simp only [step] at h
    split at h
    · rename_i x hs
      split at h
      · rename_i r hr
        cases h
        exact .collect hs hr
      · cases h
    · cases h
  | deliver =>
    simp only [step] at h
    split at h
    · rename_i item hs
      split at h
      · rename_i hc
        cases h
        exact .discard hs hc
      · rename_i hc
        split at h
        · rename_i hl
          cases h
          exact .deliver hs (Bool.eq_false_iff.2 hc) hl
        · cases h
    · cases h
  | leave =>
    simp only [step] at h
    split at h
    · rename_i hs
      split at h
      · rename_i hc
        obtain ⟨ho, hf, hd⟩ := hc
        cases h
        exact .leave hs ho hf hd
      · cases h
    · cases h
  | halt =>
    simp only [step] at h
    split at h
    · cases h
    · rename_i hs
      cases h
      exact .halt ((isRunning_iff s).2 (by rw [hs]; simp)) (.inl hs)
    · rename_i hg _
      split at h
      · rename_i hc
        cases h
        exact .halt ((isRunning_iff s).2 hg) (.inr hc)
      · cases h
  | receive =>
    simp only [step] at h
    split at h
    · rename_i item rest ho
      cases h
      exact .receive ho
    · cases h
  | cancel =>
    simp only [step] at h
    split at h
    · cases h
    · rename_i hc
      cases h
      exact .cancel (Bool.eq_false_iff.2 hc)

theorem step_of_moves (h : Moves w fetch s a t) : s.step w fetch a = some t := by
  cases h with
  | order running free more room => simp [step, running, free, more, room]
  | hand running handing room => simp [step, running, handing, room]
  | take running jobs idle => simp [step, running, jobs, idle]
  | finish running busy => simp [step, running, busy]
  | await idle orders => simp [step, idle, orders]
  | collect awaiting cell => simp [step, awaiting, cell]
  | discard holding cancelled => simp [step, holding, cancelled]
  | deliver holding wanted room => simp [step, holding, wanted, room]
  | leave idle orders free done => simp [step, idle, orders, free, done]
  | halt running ends =>
    have hg := (isRunning_iff s).1 running
    rcases ends with hl | hc
    · simp [step, hl]
    · cases hs : s.supervisor with
      | gone => exact absurd hs hg
      | _ => simp [step, hs, hc]
  | receive output => simp [step, output]
  | cancel wanted => simp [step, wanted]

theorem step_eq_some_iff : s.step w fetch a = some t ↔ Moves w fetch s a t :=
  ⟨moves_of_step, step_of_moves⟩

/-! ## Runs -/

/-- The state after some actions, if each is possible in its turn. -/
def play (w : Nat) (fetch : Nat → Except Error α) : List Action → Pipeline α → Option (Pipeline α)
  | [], s => some s
  | a :: rest, s => (s.step w fetch a).bind (play w fetch rest)

theorem reachable_of_play {r : HeightRange} {as : List Action} (h : Reachable w fetch r s)
    (hp : play w fetch as s = some t) : Reachable w fetch r t := by
  induction as generalizing s with
  | nil =>
    obtain rfl := Option.some.inj hp
    exact h
  | cons a rest ih =>
    obtain ⟨u, hu, hr⟩ := Option.bind_eq_some_iff.1 hp
    exact ih (.step h hu) hr

/-! ## Work that is left -/

theorem work_afterItem_lt (item : RangeItem α) :
    Supervisor.work (afterItem item) + 1 < Supervisor.work (.holding item) := by
  cases item with
  | ok a => simp [afterItem, Supervisor.work]
  | error e => simp [afterItem, Supervisor.work]

theorem work_pos_of_isRunning (h : s.isRunning = true) : 0 < Supervisor.work s.supervisor := by
  have hg := (isRunning_iff s).1 h
  cases hs : s.supervisor with
  | gone => exact absurd hs hg
  | _ => simp [Supervisor.work]

/-- Every action does some of the work. -/
theorem work_step (h : s.step w fetch a = some t) : t.work < s.work := by
  cases moves_of_step h with
  | order running free more room =>
    simp only [work, free, List.length_append, List.length_singleton, Option.isSome]
    simp only [if_true, Bool.false_eq_true, if_false]
    omega
  | hand running handing room =>
    simp only [work, handing, List.length_append, List.length_singleton, Option.isSome]
    simp only [if_true, Bool.false_eq_true, if_false]
    omega
  | take running jobs idle =>
    simp only [work, jobs, List.length_append, List.length_cons, List.length_nil]
    omega
  | finish running busy =>
    have hl := List.length_erase_of_mem busy
    have hp := List.length_pos_of_mem busy
    simp only [work, hl]
    omega
  | await idle orders =>
    simp only [work, idle, orders, Supervisor.work, List.length_cons]
    omega
  | collect awaiting cell =>
    simp only [work, awaiting, Supervisor.work]
    omega
  | discard holding cancelled =>
    simp only [work, holding, Supervisor.work]
    omega
  | @deliver item holding wanted room =>
    have hi := work_afterItem_lt item
    simp only [work, holding, List.length_append, List.length_singleton]
    omega
  | leave idle orders free done =>
    simp only [work, idle, Supervisor.work]
    omega
  | halt running ends =>
    have hp := work_pos_of_isRunning running
    have hz : Supervisor.work (.gone : Supervisor α) = 0 := rfl
    simp only [work, hz]
    omega
  | receive output =>
    simp only [work, output, List.length_cons]
    omega
  | cancel wanted =>
    simp only [work, wanted, if_true, Bool.false_eq_true, if_false, List.length_nil]
    omega

end ChainIndexer.Range.Pipeline
