import ChainIndexer.Range.Timeline
import ChainIndexer.Proofs.Range.Delivery

/-
  A range fetched in time is one of the runs of its pipeline.

  Each advance of a timeline is an action of the pipeline (`step_of_advance`), so what holds of
  every run of a pipeline holds of a timeline. A consumer that wants everything never cancels, and
  so it has the whole reference when it sees the end, or sees an error (`items_eq`).
-/

namespace ChainIndexer.Range

namespace Pipeline

variable {α : Type} {w : Nat} {fetch : Nat → Except Error α} {s t : Pipeline α} {a : Action}

/-- Only the consumer cancels. -/
theorem cancelled_step (h : s.step w fetch a = some t) (ha : a ≠ .cancel) :
    t.cancelled = s.cancelled := by
  cases moves_of_step h with
  | cancel wanted => exact absurd rfl ha
  | _ => rfl

end Pipeline

namespace Timeline

variable {α : Type} {c : Course α} {r : HeightRange} {t u : Timeline α}

theorem step_of_firstStep {s s' : Pipeline α} {as : List Pipeline.Action} {a : Pipeline.Action}
    (h : firstStep c s as = some (a, s')) : a ∈ as ∧ s.step c.workers c.fetch a = some s' := by
  induction as with
  | nil => cases h
  | cons b rest ih =>
    unfold firstStep at h
    split at h
    · rename_i hb
      cases h
      exact ⟨List.mem_cons_self, hb⟩
    · obtain ⟨ha, hs⟩ := ih h
      exact ⟨List.mem_cons_of_mem b ha, hs⟩

theorem step_of_next {s s' : Pipeline α} {a : Pipeline.Action} (h : next? c s = some (a, s')) :
    s.step c.workers c.fetch a = some s' ∧ (a = .cancel → isSatisfied c s = true) := by
  unfold next? at h
  split at h
  · rename_i hc
    obtain ⟨u, hu, he⟩ := Option.map_eq_some_iff.1 h
    cases he
    exact ⟨hu, fun _ => hc.1⟩
  · obtain ⟨ha, hs⟩ := step_of_firstStep h
    refine ⟨hs, ?_⟩
    intro hc
    simp [hc, immediate] at ha

/-- Each advance is an action, and cancels only when the consumer is satisfied. -/
theorem step_of_advance (h : advance c t = some u) :
    ∃ a, t.state.step c.workers c.fetch a = some u.state ∧
      (a = .cancel → isSatisfied c t.state = true) := by
  unfold advance at h
  split at h
  · cases h
  split at h
  · rename_i a s hn
    cases h
    exact ⟨a, step_of_next hn⟩
  split at h
  · cases h
  · rename_i x time hd
    split at h
    · cases h
    · obtain ⟨s, hs, he⟩ := Option.map_eq_some_iff.1 h
      cases he
      exact ⟨.finish x, hs, nofun⟩

/-- What every advance keeps, any number of them keeps. -/
theorem keeps_advanceBy {P : Timeline α → Prop} (keeps : ∀ t u, advance c t = some u → P t → P u)
    (n : Nat) (h : P t) : P (advanceBy c n t) := by
  induction n generalizing t with
  | zero => exact h
  | succ n ih =>
    unfold advanceBy
    cases ha : advance c t with
    | none => exact h
    | some u => exact ih (keeps t u ha h)

theorem reachable_advanceBy (n : Nat) (h : Pipeline.Reachable c.workers c.fetch r t.state) :
    Pipeline.Reachable c.workers c.fetch r (advanceBy c n t).state := by
  refine keeps_advanceBy (P := fun t => Pipeline.Reachable c.workers c.fetch r t.state) ?_ n h
  intro t u ha hr
  obtain ⟨a, hs, _⟩ := step_of_advance ha
  exact .step hr hs

theorem reachable_run (c : Course α) (r : HeightRange) :
    Pipeline.Reachable c.workers c.fetch r (run c r).state :=
  reachable_advanceBy _ .start

/-- A consumer that wants everything never cancels. -/
theorem cancelled_advanceBy (hw : c.wanted = none) (n : Nat) (h : t.state.cancelled = false) :
    (advanceBy c n t).state.cancelled = false := by
  refine keeps_advanceBy (P := fun t => t.state.cancelled = false) ?_ n h
  intro t u ha hf
  obtain ⟨a, hs, hc⟩ := step_of_advance ha
  have hn : a ≠ .cancel := by
    intro he
    have hsat := hc he
    unfold isSatisfied at hsat
    rw [hw] at hsat
    cases hsat
  exact (Pipeline.cancelled_step hs hn).trans hf

/-- A consumer that has seen the end or an error has the whole reference. -/
theorem items_eq (hw : c.wanted = none)
    (h : (run c r).state.hasEnded = true ∨ ∃ e, .error e ∈ (run c r).items) :
    (run c r).items = reference c.fetch r := by
  have hi := Pipeline.conserved_of_reachable (reachable_run c r)
  rcases h with he | ⟨e, he⟩
  · exact Pipeline.received_eq hi he (cancelled_advanceBy hw _ rfl)
  · exact eq_inOrder_of_error (Pipeline.received_begins hi) he

end Timeline

end ChainIndexer.Range
