import ChainIndexer.Proofs.Range.Delivery

/-
  Which heights a pipeline asks for until its consumer has everything.

  Every result stands for a height that was asked for, and so does every fetch that is going on; no
  height stands for two (`drawn_step`). A consumer that has the whole reference has one result for
  each height up to the first that fails. So all of these were asked for (`mem_asked`), and if none
  fails, no other height was, and no fetch is going on (`asked_eq`).
-/

namespace ChainIndexer.Range

variable {α : Type} {fetch : Nat → Except Error α}

theorem exists_map_ok {hs : List Nat} (h : ∀ x ∈ hs, ∃ a, fetch x = .ok a) :
    ∃ as : List α, hs.map fetch = as.map .ok := by
  induction hs with
  | nil => exact ⟨[], rfl⟩
  | cons x rest ih =>
    obtain ⟨a, ha⟩ := h x List.mem_cons_self
    obtain ⟨as, has⟩ := ih fun y hy => h y (List.mem_cons_of_mem x hy)
    exact ⟨a :: as, by rw [List.map_cons, ha, has, List.map_cons]⟩

/-- A height before which none fails has a result. -/
theorem length_lt_inOrder {before after : List Nat} {h : Nat}
    (ok : ∀ x ∈ before, ∃ a, fetch x = .ok a) :
    before.length < (inOrder fetch (before ++ h :: after)).length := by
  obtain ⟨as, has⟩ := exists_map_ok ok
  have hl : before.length = as.length := by
    simpa using congrArg List.length has
  have hp : 0 < (inOrder fetch (h :: after)).length := by
    cases hf : fetch h <;> simp [inOrder, hf]
  rw [inOrder_append_of_ok fetch has, List.length_append, List.length_map]
  omega

/-- Without a failure there are as many results as heights. -/
theorem length_inOrder {hs : List Nat} (ok : ∀ x ∈ hs, ∃ a, fetch x = .ok a) :
    (inOrder fetch hs).length = hs.length := by
  obtain ⟨as, has⟩ := exists_map_ok ok
  have hi := inOrder_append_of_ok fetch has []
  have hn : inOrder fetch [] = [] := rfl
  rw [List.append_nil, hn, List.append_nil] at hi
  rw [hi, List.length_map]
  simpa using (congrArg List.length has).symm

namespace Pipeline

variable {w : Nat} {r : HeightRange} {s t : Pipeline α} {a : Action}

/-! ## Results and questions -/

/-- The number of results that the supervisor has in hand. -/
def Supervisor.results : Supervisor α → Nat
  | .holding _ => 1
  | _ => 0

/-- The results that there are and the fetches that are going on are no more than the heights that
were asked for. -/
def Drawn (s : Pipeline α) : Prop :=
  s.received.length + s.output.length + Supervisor.results s.supervisor + s.cells.length
    + s.busy.length ≤ s.asked.length

theorem drawn_start (r : HeightRange) : Drawn (start r : Pipeline α) :=
  Nat.le_refl 0

theorem length_takeCell_lt {x : Nat} {cells : List (Nat × Except Error α)} {res : Except Error α}
    (h : cells.lookup x = some res) : (takeCell x cells).length < cells.length := by
  obtain ⟨before, after, rfl, _⟩ := List.lookup_eq_some_iff.1 h
  exact List.length_filter_lt_length_iff_exists.2 ⟨(x, res), by simp, by simp⟩

theorem drawn_step (h : s.step w fetch a = some t) (hi : Drawn s) : Drawn t := by
  unfold Drawn at hi ⊢
  -- A fetch becomes a cell, then a result in hand, in the output and with the consumer; only `take`
  -- begins one, and asks.
  cases moves_of_step h with
  | order running free more room => exact hi
  | hand running handing room => exact hi
  | take running jobs idle =>
    simp only [List.length_append, List.length_singleton] at hi ⊢
    omega
  | finish running busy =>
    have hl := List.length_erase_of_mem busy
    have hp := List.length_pos_of_mem busy
    simp only [List.length_append, List.length_singleton, hl]
    omega
  | await idle orders =>
    rw [idle] at hi
    exact hi
  | collect awaiting cell =>
    have hl := length_takeCell_lt cell
    simp only [awaiting, Supervisor.results] at hi ⊢
    omega
  | discard holding cancelled =>
    simp only [holding, Supervisor.results] at hi ⊢
    omega
  | @deliver item holding wanted room =>
    have hz : Supervisor.results (afterItem item) = 0 := by
      cases item <;> rfl
    have ho : Supervisor.results (.holding item) = 1 := rfl
    rw [holding, ho] at hi
    simp only [hz, List.length_append, List.length_singleton]
    omega
  | leave idle orders free done =>
    rw [idle] at hi
    exact hi
  | halt running ends =>
    have hz : Supervisor.results (.gone : Supervisor α) = 0 := rfl
    simp only [hz]
    omega
  | receive output =>
    simp only [output, List.length_append, List.length_cons, List.length_nil] at hi ⊢
    omega
  | cancel wanted =>
    simp only [List.length_nil]
    omega

theorem drawn_of_reachable (h : Reachable w fetch r s) : Drawn s := by
  induction h with
  | start => exact drawn_start r
  | step before now ih => exact drawn_step now ih

/-! ## What was asked for -/

/-- Each height before which none fails was asked for. -/
theorem mem_asked (h : Reachable w fetch r s) (received : s.received = reference fetch r)
    {before after : List Nat} {height : Nat} (split : r.onChain.heights = before ++ height :: after)
    (ok : ∀ x ∈ before, ∃ a, fetch x = .ok a) : height ∈ s.asked := by
  have hd := drawn_of_reachable h
  have hl : before.length < s.received.length := by
    rw [received, reference, split]
    exact length_lt_inOrder ok
  have ha := asked_begins (conserved_of_reachable h)
  have hs : before ++ [height] <+: r.onChain.heights :=
    ⟨after, by rw [split, List.append_assoc, List.singleton_append]⟩
  have hp : before ++ [height] <+: s.asked := by
    refine List.prefix_of_prefix_length_le hs ha ?_
    rw [List.length_append, List.length_singleton]
    unfold Drawn at hd
    omega
  exact hp.subset (List.mem_append_right before (List.mem_singleton_self height))

/-- If none fails, all heights of the range were asked for, and all of them are answered. -/
theorem asked_eq (h : Reachable w fetch r s) (received : s.received = reference fetch r)
    (ok : ∀ x ∈ r.onChain.heights, ∃ a, fetch x = .ok a) :
    s.asked = r.onChain.heights ∧ s.answered = r.onChain.heights := by
  have hd := drawn_of_reachable h
  have hl : s.received.length = r.onChain.heights.length := by
    rw [received, reference, length_inOrder ok]
  have ha := asked_begins (conserved_of_reachable h)
  have hle := ha.length_le
  unfold Drawn at hd
  have hq : s.asked = r.onChain.heights := ha.eq_of_length (by omega)
  have hb : s.busy = [] := List.length_eq_zero_iff.1 (by omega)
  refine ⟨hq, ?_⟩
  unfold answered
  rw [hb, hq]
  exact List.filter_eq_self.2 fun x _ => rfl

/-- Only heights that were asked for are answered. -/
theorem answered_sublist (s : Pipeline α) : s.answered.Sublist s.asked :=
  List.filter_sublist

end Pipeline

end ChainIndexer.Range
