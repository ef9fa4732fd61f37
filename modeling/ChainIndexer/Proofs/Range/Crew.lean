import ChainIndexer.Range.Crew
import ChainIndexer.Proofs.Range.Progress

/-
  A crew does what its pipeline says.

  The heights in the workers' hands are those that the pipeline counts as busy (`Manned`). So a
  worker that listens is one of those of whom the pipeline knows that they are free, every action of
  a crew is one of its pipeline or only a change of turns (`pipeline_step`), and whatever a pipeline
  comes to, a crew can bring it to (`exists_crew`). No crew gets stuck over the turns either, so a
  range goes on until the consumer has seen its end (`never_stuck`).
-/

namespace ChainIndexer.Range.Crew

variable {α : Type} {w : Nat} {fetch : Nat → Except Error α} {r : HeightRange} {c c' : Crew α}
  {s t : Pipeline α} {a : Action}

/-! ## Actions -/

/-- An action with what it needs, and the crew after it. -/
inductive Moves (w : Nat) (fetch : Nat → Except Error α) (c : Crew α) : Action → Crew α → Prop
  | turn {i : Nat} (running : c.pipeline.isRunning = true)
      (queuing : c.workers[i]? = some .queuing) (free : .listening ∉ c.workers) :
      Moves w fetch c (.turn i) { c with workers := c.workers.set i .listening }
  | take {i h : Nat} {rest : List Nat} (running : c.pipeline.isRunning = true)
      (listening : c.workers[i]? = some .listening) (jobs : c.pipeline.jobs = h :: rest) :
      Moves w fetch c (.take i) (c.handOver i h rest)
  | finish {i h : Nat} (running : c.pipeline.isRunning = true)
      (fetching : c.workers[i]? = some (.fetching h)) :
      Moves w fetch c (.finish i) (c.fill i h (fetch h))
  | dismiss {i : Nat} (running : c.pipeline.isRunning = true)
      (listening : c.workers[i]? = some .listening) (jobs : c.pipeline.jobs = [])
      (free : c.pipeline.handing = none) (done : c.pipeline.stop ≤ c.pipeline.next) :
      Moves w fetch c (.dismiss i) { c with workers := c.workers.set i .gone }
  | aside {b : Pipeline.Action} {s : Pipeline α} (own : isWorkers b = false)
      (now : c.pipeline.step w fetch b = some s) :
      Moves w fetch c (.aside b) { c with pipeline := s }

theorem moves_of_step (h : c.step w fetch a = some c') : Moves w fetch c a c' := by
  cases a with
  | turn i =>
    simp only [step] at h
    split at h
    · rename_i hc
      cases h
      exact .turn hc.1 hc.2.1 hc.2.2
    · cases h
  | take i =>
    simp only [step] at h
    split at h
    · rename_i x rest hw hj
      split at h
      · rename_i hr
        cases h
        exact .take hr hw hj
      · cases h
    · cases h
  | finish i =>
    simp only [step] at h
    split at h
    · rename_i x hw
      split at h
      · rename_i hr
        cases h
        exact .finish hr hw
      · cases h
    · cases h
  | dismiss i =>
    simp only [step] at h
    split at h
    · rename_i hc
      obtain ⟨hr, hw, hj, hh, hd⟩ := hc
      cases h
      exact .dismiss hr hw hj hh hd
    · cases h
  | aside b =>
    simp only [step] at h
    split at h
    · cases h
    · rename_i hb
      obtain ⟨s, hs, rfl⟩ := Option.map_eq_some_iff.1 h
      exact .aside (Bool.eq_false_iff.2 hb) hs

theorem step_of_moves (h : Moves w fetch c a c') : c.step w fetch a = some c' := by
  cases h with
  | turn running queuing free => simp [step, running, queuing, free]
  | take running listening jobs => simp [step, running, listening, jobs]
  | finish running fetching => simp [step, running, fetching]
  | dismiss running listening jobs free done => simp [step, running, listening, jobs, free, done]
  | aside own now => simp [step, own, now]

/-! ## What is in the workers' hands -/

/-- The heights that some workers fetch. -/
def heights (workers : List Worker) : List Nat :=
  workers.filterMap Worker.height?

theorem heights_cons (x : Worker) (workers : List Worker) :
    heights (x :: workers) = x.height?.toList ++ heights workers := by
  unfold heights
  rw [List.filterMap_cons]
  cases x.height? with
  | none => rfl
  | some h => rfl

/-- What one worker fetches, and what the others do. -/
theorem perm_heights_set {workers : List Worker} {i : Nat} (hi : i < workers.length) (y : Worker) :
    (heights (workers.set i y)).Perm (y.height?.toList ++ heights (workers.eraseIdx i)) := by
  induction workers generalizing i with
  | nil => exact absurd hi (Nat.not_lt_zero i)
  | cons x workers ih =>
    cases i with
    | zero =>
      rw [List.set_cons_zero, List.eraseIdx_cons_zero, heights_cons]
    | succ i =>
      rw [List.set_cons_succ, List.eraseIdx_cons_succ, heights_cons, heights_cons]
      refine ((ih (Nat.lt_of_succ_lt_succ hi)).append_left _).trans ?_
      exact List.perm_append_comm_assoc _ _ _

theorem perm_heights {workers : List Worker} {i : Nat} {x : Worker} (h : workers[i]? = some x) :
    (heights workers).Perm (x.height?.toList ++ heights (workers.eraseIdx i)) := by
  obtain ⟨hi, rfl⟩ := List.getElem?_eq_some_iff.1 h
  have hp := perm_heights_set hi workers[i]
  rwa [List.set_getElem_self hi] at hp

/-- A worker that fetches nothing before and after leaves the heights alone. -/
theorem perm_heights_of_none {workers : List Worker} {i : Nat} {x y : Worker}
    (h : workers[i]? = some x) (hx : x.height? = none) (hy : y.height? = none) :
    (heights workers).Perm (heights (workers.set i y)) := by
  have hi := (List.getElem?_eq_some_iff.1 h).1
  have hb := perm_heights h
  have ha := perm_heights_set hi y
  rw [hx] at hb
  rw [hy] at ha
  exact hb.trans ha.symm

theorem mem_heights_iff {workers : List Worker} {h : Nat} :
    h ∈ heights workers ↔ .fetching h ∈ workers := by
  unfold heights
  rw [List.mem_filterMap]
  constructor
  · rintro ⟨x, hx, he⟩
    cases x with
    | fetching h' =>
      obtain rfl := Option.some.inj he
      exact hx
    | _ => cases he
  · intro hx
    exact ⟨_, hx, rfl⟩

/-- No job is left, and none can come any more. -/
def IsSpent (s : Pipeline α) : Prop :=
  s.jobs = [] ∧ s.handing = none ∧ s.stop ≤ s.next

/-- Each height that is being fetched is in the hands of one of `w` workers, and none of them goes
away too early. -/
structure Manned (w : Nat) (c : Crew α) : Prop where
  count : c.workers.length = w
  busy : c.pipeline.busy.Perm (heights c.workers)
  gone : .gone ∈ c.workers → IsSpent c.pipeline

theorem manned_start (w : Nat) (r : HeightRange) : Manned w (start w r : Crew α) := by
  have hn : heights (List.replicate w .queuing) = [] := List.filterMap_replicate
  refine ⟨List.length_replicate, (List.Perm.of_eq hn).symm, ?_⟩
  · intro hg
    exact absurd (List.eq_of_mem_replicate hg) nofun

theorem isSpent_step {b : Pipeline.Action} (h : s.step w fetch b = some t) (hs : IsSpent s) :
    IsSpent t := by
  obtain ⟨hj, hh, hd⟩ := hs
  cases Pipeline.moves_of_step h with
  | order running free more room => exact absurd more (Nat.not_lt.2 hd)
  | hand running handing room => exact absurd handing (by rw [hh]; nofun)
  | take running jobs idle => exact absurd jobs (by rw [hj]; nofun)
  | _ => exact ⟨hj, hh, hd⟩

theorem busy_step {b : Pipeline.Action} (h : s.step w fetch b = some t)
    (hb : isWorkers b = false) : t.busy = s.busy := by
  cases Pipeline.moves_of_step h with
  | take running jobs idle => cases hb
  | finish running busy => cases hb
  | _ => rfl

theorem mem_of_mem_set {workers : List Worker} {i : Nat} {x y : Worker}
    (h : x ∈ workers.set i y) (hn : x ≠ y) : x ∈ workers :=
  (List.mem_or_eq_of_mem_set h).resolve_right hn

theorem manned_step (h : c.step w fetch a = some c') (hi : Manned w c) : Manned w c' := by
  obtain ⟨hc, hb, hg⟩ := hi
  have hl : ∀ i y, (c.workers.set i y).length = w := fun i y => List.length_set.trans hc
  cases moves_of_step h with
  | @turn i running queuing free =>
    refine ⟨hl _ _, hb.trans (perm_heights_of_none queuing rfl rfl), ?_⟩
    intro hm
    exact hg (mem_of_mem_set hm nofun)
  | @take i x rest running listening jobs =>
    have hlt := (List.getElem?_eq_some_iff.1 listening).1
    refine ⟨hl _ _, ?_, ?_⟩
    · have hs : (c.pipeline.busy ++ [x]).Perm (x :: heights (c.workers.eraseIdx i)) :=
        (List.perm_append_singleton x _).trans ((hb.trans (perm_heights listening)).cons x)
      exact hs.trans (perm_heights_set hlt (.fetching x)).symm
    · intro hm
      exact absurd jobs (by rw [(hg (mem_of_mem_set hm nofun)).1]; nofun)
  | @finish i x running fetching =>
    have hlt := (List.getElem?_eq_some_iff.1 fetching).1
    refine ⟨hl _ _, ?_, ?_⟩
    · have hs : (c.pipeline.busy.erase x).Perm ((x :: heights (c.workers.eraseIdx i)).erase x) :=
        (hb.trans (perm_heights fetching)).erase x
      rw [List.erase_cons_head] at hs
      exact hs.trans (perm_heights_set hlt .queuing).symm
    · intro hm
      exact hg (mem_of_mem_set hm nofun)
  | @dismiss i running listening jobs free done =>
    exact ⟨hl _ _, hb.trans (perm_heights_of_none listening rfl rfl), fun _ => ⟨jobs, free, done⟩⟩
  | aside own now =>
    refine ⟨hc, ?_, fun hm => isSpent_step now (hg hm)⟩
    rw [busy_step now own]
    exact hb

/-- A worker that is not fetching leaves the pipeline room for one more fetch. -/
theorem busy_lt (hi : Manned w c) {i : Nat} {x : Worker} (h : c.workers[i]? = some x)
    (hx : x.height? = none) : c.pipeline.busy.length < w := by
  rw [hi.busy.length_eq, ← hi.count]
  exact List.length_filterMap_lt_length_iff_exists.2 ⟨x, List.mem_of_getElem? h, hx⟩

/-- An action of a crew is one of its pipeline, or leaves the pipeline as it is. -/
theorem pipeline_step (h : c.step w fetch a = some c') (hi : Manned w c) :
    c'.pipeline = c.pipeline ∨ ∃ b, c.pipeline.step w fetch b = some c'.pipeline := by
  cases moves_of_step h with
  | turn running queuing free => exact .inl rfl
  | take running listening jobs =>
    exact .inr ⟨_, Pipeline.step_of_moves (.take running jobs (busy_lt hi listening rfl))⟩
  | @finish i x running fetching =>
    have hx : x ∈ c.pipeline.busy :=
      hi.busy.mem_iff.2 (mem_heights_iff.2 (List.mem_of_getElem? fetching))
    exact .inr ⟨_, Pipeline.step_of_moves (.finish running hx)⟩
  | dismiss running listening jobs free done => exact .inl rfl
  | aside own now => exact .inr ⟨_, now⟩

theorem manned_of_reachable (h : Reachable w fetch r c) : Manned w c := by
  induction h with
  | start => exact manned_start w r
  | step before now ih => exact manned_step now ih

theorem reachable_pipeline (h : Reachable w fetch r c) :
    Pipeline.Reachable w fetch r c.pipeline := by
  induction h with
  | start => exact .start
  | step before now ih =>
    rcases pipeline_step now (manned_of_reachable before) with he | ⟨b, hb⟩
    · rw [he]
      exact ih
    · exact .step ih hb

/-! ## Turns -/

/-- Where a job waits and not all workers fetch, one of them listens, or has its turn next. -/
theorem exists_listening (fetch : Nat → Except Error α) (hi : Manned w c)
    (hr : c.pipeline.isRunning = true) (hj : c.pipeline.jobs ≠ [])
    (hl : c.pipeline.busy.length < w) :
    ∃ i c', (c' = c ∨ c.step w fetch (.turn i) = some c') ∧ c'.pipeline = c.pipeline ∧
      c'.workers[i]? = some .listening := by
  by_cases hs : .listening ∈ c.workers
  · obtain ⟨i, hx⟩ := List.mem_iff_getElem?.1 hs
    exact ⟨i, c, .inl rfl, rfl, hx⟩
  · rw [hi.busy.length_eq, ← hi.count] at hl
    obtain ⟨x, hx, hn⟩ := List.length_filterMap_lt_length_iff_exists.1 hl
    cases x with
    | queuing =>
      obtain ⟨i, hq⟩ := List.mem_iff_getElem?.1 hx
      have hlt := (List.getElem?_eq_some_iff.1 hq).1
      exact ⟨i, _, .inr (step_of_moves (.turn hr hq hs)), rfl, List.getElem?_set_self hlt⟩
    | listening => exact absurd hx hs
    | fetching h => cases hn
    | gone => exact absurd (hi.gone hx).1 hj

theorem exists_fetching (hi : Manned w c) {h : Nat} (hb : h ∈ c.pipeline.busy) :
    ∃ i : Nat, c.workers[i]? = some (.fetching h) :=
  List.mem_iff_getElem?.1 (mem_heights_iff.1 (hi.busy.mem_iff.1 hb))

/-- What a pipeline can do, a crew can do; where a worker has to listen first, in two steps. -/
theorem exists_step_of_pipeline (hr : Reachable w fetch r c) {b : Pipeline.Action}
    (h : c.pipeline.step w fetch b = some s) :
    ∃ c', Reachable w fetch r c' ∧ c'.pipeline = s := by
  have hi := manned_of_reachable hr
  cases Pipeline.moves_of_step h with
  | @take x rest running jobs idle =>
    have hj : c.pipeline.jobs ≠ [] := by
      rw [jobs]
      nofun
    obtain ⟨i, d, hd, hp, hl⟩ := exists_listening fetch hi running hj idle
    have hreach : Reachable w fetch r d := by
      rcases hd with rfl | hd
      · exact hr
      · exact .step hr hd
    have hm : Moves w fetch d (.take i) (d.handOver i x rest) :=
      .take (hp ▸ running) hl (hp ▸ jobs)
    refine ⟨_, .step hreach (step_of_moves hm), ?_⟩
    unfold handOver
    rw [hp]
  | @finish x running busy =>
    obtain ⟨i, hx⟩ := exists_fetching hi busy
    exact ⟨_, .step hr (step_of_moves (.finish running hx)), rfl⟩
  | _ => exact ⟨_, .step hr (step_of_moves (.aside rfl h)), rfl⟩

/-- Whatever a pipeline comes to, a crew can bring it to. -/
theorem exists_crew (h : Pipeline.Reachable w fetch r s) :
    ∃ c, Reachable w fetch r c ∧ c.pipeline = s := by
  induction h with
  | start => exact ⟨_, .start, rfl⟩
  | step before now ih =>
    obtain ⟨c, hc, rfl⟩ := ih
    exact exists_step_of_pipeline hc now

/-- Something can happen that the consumer does not have to break off for. -/
def GoesOn (w : Nat) (fetch : Nat → Except Error α) (c : Crew α) : Prop :=
  ∃ a c', a ≠ .aside .cancel ∧ c.step w fetch a = some c'

theorem goesOn_of_moves (h : Moves w fetch c a c') (ha : a ≠ .aside .cancel) : GoesOn w fetch c :=
  ⟨a, c', ha, step_of_moves h⟩

/-- When something can happen in its pipeline, something can happen in a crew. -/
theorem goesOn_of_pipeline (hi : Manned w c) (h : Pipeline.GoesOn w fetch c.pipeline) :
    GoesOn w fetch c := by
  obtain ⟨b, t, hb, ht⟩ := h
  cases Pipeline.moves_of_step ht with
  | @take x rest running jobs idle =>
    have hj : c.pipeline.jobs ≠ [] := by
      rw [jobs]
      nofun
    obtain ⟨i, d, hd, _, hl⟩ := exists_listening fetch hi running hj idle
    rcases hd with rfl | hd
    · exact goesOn_of_moves (.take running hl jobs) nofun
    · exact ⟨.turn i, d, nofun, hd⟩
  | finish running busy =>
    obtain ⟨i, hx⟩ := exists_fetching hi busy
    exact goesOn_of_moves (.finish running hx) nofun
  | cancel wanted => exact absurd rfl hb
  | _ => exact goesOn_of_moves (.aside rfl ht) nofun

/-! ## Work that is left -/

theorem count_set {workers : List Worker} {i : Nat} {x : Worker} (h : workers[i]? = some x)
    (y z : Worker) : (workers.set i y).count z + (if x = z then 1 else 0) =
      workers.count z + if y = z then 1 else 0 := by
  obtain ⟨hi, rfl⟩ := List.getElem?_eq_some_iff.1 h
  have hp : workers[i] = z → 0 < workers.count z := fun he =>
    List.count_pos_iff.2 (he ▸ List.getElem_mem hi)
  rw [List.count_set hi]
  simp only [beq_iff_eq]
  split
  · rename_i he
    have := hp he
    omega
  · omega

/-- Every action of a crew does some of the work. -/
theorem work_step (h : c.step w fetch a = some c') (hi : Manned w c) : c'.work < c.work := by
  cases moves_of_step h with
  | turn running queuing free =>
    have hq := count_set queuing .listening .queuing
    have hl := count_set queuing .listening .listening
    simp only [work, reduceCtorEq, if_true, if_false] at hq hl ⊢
    omega
  | @take i x rest running listening jobs =>
    have hm : Pipeline.Moves w fetch c.pipeline .take (c.handOver i x rest).pipeline :=
      .take running jobs (busy_lt hi listening rfl)
    have hp := Pipeline.work_step (Pipeline.step_of_moves hm)
    have hq := count_set listening (.fetching x) .queuing
    have hl := count_set listening (.fetching x) .listening
    simp only [work, handOver, reduceCtorEq, if_true, if_false] at hp hq hl ⊢
    omega
  | @finish i x running fetching =>
    have hx : x ∈ c.pipeline.busy :=
      hi.busy.mem_iff.2 (mem_heights_iff.2 (List.mem_of_getElem? fetching))
    have hm : Pipeline.Moves w fetch c.pipeline (.finish x) (c.fill i x (fetch x)).pipeline :=
      .finish running hx
    have hp := Pipeline.work_step (Pipeline.step_of_moves hm)
    have hq := count_set fetching .queuing .queuing
    have hl := count_set fetching .queuing .listening
    simp only [work, fill, reduceCtorEq, if_true, if_false] at hp hq hl ⊢
    omega
  | dismiss running listening jobs free done =>
    have hq := count_set listening .gone .queuing
    have hl := count_set listening .gone .listening
    simp only [work, reduceCtorEq, if_true, if_false] at hq hl ⊢
    omega
  | aside own now =>
    have hp := Pipeline.work_step now
    simp only [work]
    omega

/-! ## No way to get stuck -/

/-- With any number of workers and in any order of actions, something other than breaking off can
happen until the consumer has seen the end, and it leaves less to do. Each height for which the
supervisor waits or will wait has its cell filled, or its job is in the job queue, in a worker's
hands, or the one that the producer is about to put into the queue. The same goes for the workers
one by one: whichever of them has its turn at the jobs, somebody can act, and the heights that are
being fetched are in their hands. -/
theorem never_stuck (n : Nat) (h : Pipeline.Reachable (Pipeline.workers n) fetch r s) :
    (s.hasEnded = false → ∃ a t, a ≠ .cancel ∧ s.step (Pipeline.workers n) fetch a = some t ∧
      t.work < s.work) ∧
    (∀ x, x ∈ s.orders ∨ s.supervisor = .awaiting x →
      (∃ result, s.cells.lookup x = some result) ∨ x ∈ s.jobs ∨ x ∈ s.busy ∨ s.handing = some x) ∧
    (∃ c, Reachable (Pipeline.workers n) fetch r c ∧ c.pipeline = s) ∧
    ∀ c, Reachable (Pipeline.workers n) fetch r c → c.pipeline = s →
      (s.hasEnded = false → ∃ a c', a ≠ .aside .cancel ∧
        c.step (Pipeline.workers n) fetch a = some c' ∧ c'.work < c.work) ∧
      c.workers.length = Pipeline.workers n ∧ ∀ x, x ∈ s.busy ↔ .fetching x ∈ c.workers := by
  have ht := Pipeline.traced_of_reachable h
  have hw := Pipeline.workers_pos n
  refine ⟨?_, ?_, exists_crew h, ?_⟩
  · intro he
    obtain ⟨a, t, ha, hs⟩ := Pipeline.goesOn hw ht he
    exact ⟨a, t, ha, hs, Pipeline.work_step hs⟩
  · intro x hx
    have hm : x ∈ s.pending := by
      unfold Pipeline.pending
      rcases hx with hx | hx
      · exact List.mem_append_right _ hx
      · rw [hx]
        exact List.mem_cons_self
    cases ht.located x hm with
    | filled cell => exact .inl ⟨_, cell⟩
    | queued job => exact .inr (.inl job)
    | fetching busy => exact .inr (.inr (.inl busy))
    | handing hand => exact .inr (.inr (.inr hand))
  · rintro c hc rfl
    have hi := manned_of_reachable hc
    refine ⟨?_, hi.count, fun x => hi.busy.mem_iff.trans mem_heights_iff⟩
    intro he
    obtain ⟨a, c', ha, hs⟩ := goesOn_of_pipeline hi (Pipeline.goesOn hw ht he)
    exact ⟨a, c', ha, hs, work_step hs hi⟩

/-- A run in which the first height is slow and those behind it are not: each of them is fetched
while the supervisor waits for the first one, until there is no more room for orders. -/
def headOfLine : List Pipeline.Action :=
  [.order, .hand, .take, .await] ++
    (List.range' 2 10).flatMap fun h => [.order, .hand, .take, .finish h]

theorem never_stuck_headOfLine :
    ∃ s : Pipeline Unit, Pipeline.Reachable (Pipeline.workers 0) (fun _ => .ok ()) ⟨1, 20⟩ s ∧
      s.hasEnded = false ∧ s.orders = List.range' 2 10 ∧ s.jobs = [] ∧ s.busy = [1] ∧
      ∃ a t, a ≠ .cancel ∧ s.step (Pipeline.workers 0) (fun _ => .ok ()) a = some t ∧
        t.work < s.work := by
  have hp : (Pipeline.play (Pipeline.workers 0) (fun _ => .ok ()) headOfLine
      (.start ⟨1, 20⟩ : Pipeline Unit)).isSome = true := rfl
  obtain ⟨s, hs⟩ := Option.isSome_iff_exists.1 hp
  have hr := Pipeline.reachable_of_play .start hs
  obtain rfl := (Option.some.inj hs).symm
  exact ⟨_, hr, rfl, rfl, rfl, rfl, (never_stuck 0 hr).1 rfl⟩

end ChainIndexer.Range.Crew
