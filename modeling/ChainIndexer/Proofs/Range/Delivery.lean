import ChainIndexer.Proofs.Range.Moves
import ChainIndexer.Proofs.Range.Reference
import ChainIndexer.Chain.Basic

/-
  A range is delivered in order.

  Two things stay as they are with every action. What has been asked for, what stands in the job
  queue, the job in the producer's hand and the heights not yet ordered are together the heights of
  the range. And as long as the consumer wants more, what it has received, what waits for it and
  what is `toCome` are together the reference. Hence the consumer always has a beginning of the
  reference, and at the end all of it (`delivery_in_order`).
-/

namespace ChainIndexer.Range.Pipeline

variable {α : Type} {w : Nat} {fetch : Nat → Except Error α} {r : HeightRange} {s t : Pipeline α}
  {a : Action}

/-! ## What is left -/

/-- The heights for which there is no order yet. -/
def unordered (s : Pipeline α) : List Nat :=
  List.range' s.next (s.stop - s.next)

/-- The heights that the supervisor has not begun to wait for. -/
def unawaited (s : Pipeline α) : List Nat :=
  s.orders ++ s.unordered

/-- What the supervisor is still to pass on if the consumer wants everything. -/
def toCome (fetch : Nat → Except Error α) (s : Pipeline α) : List (RangeItem α) :=
  match s.supervisor with
  | .idle => inOrder fetch s.unawaited
  | .awaiting h => inOrder fetch (h :: s.unawaited)
  | .holding (.ok a) => .ok a :: inOrder fetch s.unawaited
  | .holding (.error e) => [.error e]
  | .leaving => []
  | .gone => []

theorem unordered_of_lt (h : s.next < s.stop) :
    s.unordered = s.next :: List.range' (s.next + 1) (s.stop - (s.next + 1)) := by
  unfold unordered
  have hl : s.stop - s.next = s.stop - (s.next + 1) + 1 := by omega
  rw [hl, List.range'_succ]

theorem unordered_of_le (h : s.stop ≤ s.next) : s.unordered = [] := by
  unfold unordered
  rw [Nat.sub_eq_zero_of_le h, List.range'_zero]

/-- The result in hand is what the results of its height begin with. -/
theorem toCome_holding_itemOf (h : Nat) (hs : s.supervisor = .holding (itemOf h (fetch h))) :
    s.toCome fetch = inOrder fetch (h :: s.unawaited) := by
  unfold toCome
  rw [hs]
  cases hf : fetch h with
  | ok x => simp only [itemOf, inOrder, hf]
  | error e => simp only [itemOf, inOrder, hf]

/-- After passing on a result the rest is to come. -/
theorem toCome_afterItem {item : RangeItem α} (hs : s.supervisor = .holding item)
    (ht : t.supervisor = afterItem item) (hu : t.unawaited = s.unawaited) :
    s.toCome fetch = item :: t.toCome fetch := by
  unfold toCome
  rw [hs, ht, hu]
  cases item with
  | ok x => rfl
  | error e => rfl

/-! ## What every action keeps -/

/-- Nothing is lost on the way from the range to the consumer. -/
structure Conserved (fetch : Nat → Except Error α) (r : HeightRange) (s : Pipeline α) : Prop where
  heights : s.asked ++ s.jobs ++ s.handing.toList ++ s.unordered = r.onChain.heights
  busy : ∀ x ∈ s.busy, x ∈ s.asked
  cells : ∀ c ∈ s.cells, c.2 = fetch c.1
  wanted : s.cancelled = false →
    s.received ++ s.output ++ s.toCome fetch = reference fetch r
  cancelled : s.cancelled = true → s.output = [] ∧ s.received <+: reference fetch r

theorem conserved_start (fetch : Nat → Except Error α) (r : HeightRange) :
    Conserved fetch r (start r) := by
  refine ⟨rfl, ?_, ?_, ?_, ?_⟩
  · intro x hx
    simp [start] at hx
  · intro c hc
    simp [start] at hc
  · intro _
    rfl
  · intro hc
    simp [start] at hc

theorem conserved_step (h : s.step w fetch a = some t) (hi : Conserved fetch r s) :
    Conserved fetch r t := by
  obtain ⟨hh, hb, hc, hw, hx⟩ := hi
  -- `order` moves a height from the unordered ones to the orders and `await` from there to the
  -- supervisor, so that what is to come changes only when a result is passed on.
  cases moves_of_step h with
  | order running free more room =>
    have hu := unordered_of_lt more
    have ho : s.orders ++ [s.next] ++ List.range' (s.next + 1) (s.stop - (s.next + 1)) =
        s.unawaited := by
      rw [List.append_assoc, List.singleton_append, ← hu]
      rfl
    refine ⟨?_, hb, hc, ?_, hx⟩
    · rw [free, hu] at hh
      simpa [unordered] using hh
    · intro hf
      rw [← hw hf]
      unfold toCome
      simp only [unawaited, unordered] at ho ⊢
      rw [ho]
  | hand running handing room =>
    refine ⟨?_, hb, hc, hw, hx⟩
    rw [handing] at hh
    simpa [unordered] using hh
  | @take x rest running jobs idle =>
    refine ⟨?_, ?_, hc, hw, hx⟩
    · rw [jobs] at hh
      simpa [unordered] using hh
    · intro y hy
      rcases List.mem_append.1 hy with hy | hy
      · exact List.mem_append_left _ (hb y hy)
      · exact List.mem_append_right _ hy
  | finish running busy =>
    refine ⟨hh, ?_, ?_, hw, hx⟩
    · intro y hy
      exact hb y (List.mem_of_mem_erase hy)
    · intro c hm
      rcases List.mem_append.1 hm with hm | hm
      · exact hc c hm
      · rw [List.mem_singleton.1 hm]
  | await idle orders =>
    refine ⟨hh, hb, hc, ?_, hx⟩
    intro hf
    rw [← hw hf]
    simp only [toCome, unawaited, unordered, idle, orders, List.cons_append]
  | @collect x res awaiting cell =>
    obtain ⟨l₁, l₂, hl, _⟩ := List.lookup_eq_some_iff.1 cell
    have hres : res = fetch x := hc (x, res) (by rw [hl]; simp)
    subst hres
    refine ⟨hh, hb, ?_, ?_, hx⟩
    · intro c hm
      exact hc c (List.mem_filter.1 hm).1
    · intro hf
      rw [← hw hf, toCome_holding_itemOf x rfl]
      simp only [toCome, unawaited, unordered, awaiting]
  | discard holding cancelled =>
    refine ⟨hh, hb, hc, ?_, hx⟩
    intro hf
    exact absurd cancelled (by rw [hf]; simp)
  | @deliver item holding wanted room =>
    refine ⟨hh, hb, hc, ?_, ?_⟩
    · intro hf
      have ht : s.toCome fetch = item :: toCome fetch
          { s with supervisor := afterItem item, output := s.output ++ [item] } :=
        toCome_afterItem holding rfl rfl
      rw [← hw wanted, ht]
      simp only [List.append_assoc, List.singleton_append]
    · intro hf
      exact absurd wanted (by rw [hf]; simp)
  | leave idle orders free done =>
    refine ⟨hh, hb, hc, ?_, hx⟩
    intro hf
    rw [← hw hf]
    simp only [toCome, idle, unawaited, orders, unordered_of_le done, List.append_nil, inOrder]
  | halt running ends =>
    refine ⟨hh, hb, hc, ?_, hx⟩
    intro hf
    rcases ends with hl | hc'
    · rw [← hw hf]
      simp only [toCome, hl]
    · exact absurd hc' (by rw [show s.cancelled = false from hf]; simp)
  | receive output =>
    refine ⟨hh, hb, hc, ?_, ?_⟩
    · intro hf
      rw [← hw hf, output]
      simp only [List.append_assoc, List.singleton_append]
      rfl
    · intro hf
      exact absurd output (by rw [(hx hf).1]; simp)
  | cancel wanted =>
    refine ⟨hh, hb, hc, ?_, ?_⟩
    · intro hf
      exact absurd hf (by simp)
    · intro _
      refine ⟨rfl, s.output ++ s.toCome fetch, ?_⟩
      rw [← hw wanted, List.append_assoc]

theorem conserved_of_reachable (h : Reachable w fetch r s) : Conserved fetch r s := by
  induction h with
  | start => exact conserved_start fetch r
  | step before now ih => exact conserved_step now ih

/-! ## What the consumer receives -/

theorem received_begins (h : Conserved fetch r s) : s.received <+: reference fetch r := by
  cases hc : s.cancelled with
  | true => exact (h.cancelled hc).2
  | false =>
    refine ⟨s.output ++ s.toCome fetch, ?_⟩
    rw [← h.wanted hc, List.append_assoc]

theorem received_eq (h : Conserved fetch r s) (he : s.hasEnded = true)
    (hc : s.cancelled = false) : s.received = reference fetch r := by
  unfold hasEnded isRunning at he
  have hw := h.wanted hc
  cases hs : s.supervisor with
  | gone =>
    have ho : s.output = [] := by simpa [hs] using he
    simpa [toCome, hs, ho] using hw
  | _ => simp [hs] at he

theorem asked_begins (h : Conserved fetch r s) : s.asked <+: r.onChain.heights := by
  refine ⟨s.jobs ++ s.handing.toList ++ s.unordered, ?_⟩
  rw [← h.heights]
  simp only [List.append_assoc]

theorem zero_notMem_heights (r : HeightRange) : 0 ∉ r.onChain.heights := by
  intro h
  have := (HeightRange.mem_heights.1 h).1
  simp only [HeightRange.onChain] at this
  omega

/-- A run depends on nothing but the answers about the heights of the range. -/
theorem reachable_congr {fetch' : Nat → Except Error α} (h : Reachable w fetch r s)
    (hf : ∀ x ∈ r.onChain.heights, fetch' x = fetch x) : Reachable w fetch' r s := by
  induction h with
  | start => exact .start
  | @step s t a before now ih =>
    have hi := conserved_of_reachable before
    have hb : ∀ x ∈ s.busy, fetch' x = fetch x := fun x hx =>
      hf x ((asked_begins hi).subset (hi.busy x hx))
    refine .step (a := a) ih ?_
    rw [← now]
    cases a with
    | finish x =>
      simp only [step]
      split
      · rename_i hc
        rw [hb x hc.2]
      · rfl
    | _ => rfl

/-- With any number of workers and in any order of actions the consumer receives a beginning of the
reference, and all of it if it sees the end and has not cancelled. The reference holds the results
of the heights from 1 on up to the first failure. These heights are asked for in ascending order and
once each, and height 0 never: with other answers about any height that is not of the range, the
same run is possible. -/
theorem delivery_in_order (c : Chain) (pool : String) (n : Nat) (r : HeightRange)
    {s : Pipeline HeightData} (h : Reachable (workers n) (c.fetch pool) r s) :
    s.received <+: reference (c.fetch pool) r ∧
      (s.hasEnded = true → s.cancelled = false → s.received = reference (c.fetch pool) r) ∧
      UpToFailure (c.fetch pool) (List.range' (max r.start 1) (r.stop - max r.start 1))
        (reference (c.fetch pool) r) ∧
      s.asked <+: List.range' (max r.start 1) (r.stop - max r.start 1) ∧
      s.asked.Nodup ∧ 0 ∉ s.asked ∧
      ∀ fetch : Nat → Except Error HeightData,
        (∀ x, 1 ≤ x → r.start ≤ x → x < r.stop → fetch x = c.fetch pool x) →
          Reachable (workers n) fetch r s := by
  have hi := conserved_of_reachable h
  have ha := asked_begins hi
  refine ⟨received_begins hi, received_eq hi, upToFailure_inOrder _ _, ha, ?_, ?_, ?_⟩
  · exact ha.sublist.nodup List.nodup_range'
  · intro hz
    exact zero_notMem_heights r (ha.subset hz)
  · intro fetch hf
    refine reachable_congr h fun x hx => ?_
    have hm := HeightRange.mem_heights.1 hx
    simp only [HeightRange.onChain] at hm
    exact hf x (by omega) (by omega) hm.2

/-- Three heights of which the second fails. -/
def secondFails : Chain where
  block h := if h = 2 then .error .elapsed else .ok ⟨"", h, .epoch, "", 0⟩
  delay _ := 0
  transactions _ := .ok []
  rewards _ := .error .elapsed
  balances _ := .error .elapsed
  delegations _ := .error .elapsed

/-- A run in which the heights come to an end in the order 3, 2, 1. -/
def backwards : List Action :=
  [.order, .hand, .order, .hand, .take, .order, .take, .hand, .take, .finish 3, .await, .finish 2,
   .finish 1, .collect, .deliver, .await, .collect, .receive, .deliver, .halt, .receive]

theorem delivery_in_order_backwards :
    ∃ s : Pipeline HeightData, Reachable (workers 0) (secondFails.fetch "") ⟨0, 4⟩ s ∧
      s.hasEnded = true ∧ s.cancelled = false ∧ s.asked = [1, 2, 3] ∧
      s.received = [.ok ⟨⟨"", 1, .epoch, "", 0⟩, []⟩, .error (.range 2 .elapsed)] ∧
      s.received = reference (secondFails.fetch "") ⟨0, 4⟩ := by
  have hp : (play (workers 0) (secondFails.fetch "") backwards (start ⟨0, 4⟩)).isSome = true := rfl
  obtain ⟨s, hs⟩ := Option.isSome_iff_exists.1 hp
  have hr := reachable_of_play .start hs
  obtain rfl := (Option.some.inj hs).symm
  exact ⟨_, hr, rfl, rfl, rfl, rfl, (delivery_in_order secondFails "" 0 ⟨0, 4⟩ hr).2.1 rfl rfl⟩

end ChainIndexer.Range.Pipeline
