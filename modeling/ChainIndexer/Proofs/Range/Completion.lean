import ChainIndexer.Proofs.Range.Progress
import ChainIndexer.Proofs.Range.Timeline

/-
  A range that nothing breaks off comes to its end.

  A timeline is `Booked` if it has an end for each fetch that is going on, and every advance keeps
  it so (`booked_advance`). Then a timeline is stuck only where its pipeline is, which is at the end
  (`hasEnded_of_stuck`). Every advance does some of the work that is left, so that a run with as
  many advances as there was work at the start is stuck (`stuck_advanceBy`).
-/

namespace ChainIndexer.Range

namespace Pipeline

variable {α : Type} {w : Nat} {fetch : Nat → Except Error α} {s t : Pipeline α} {a : Action}

/-! ## Which heights are being fetched -/

end Pipeline

namespace Timeline

variable {α : Type} {c : Course α} {r : HeightRange} {t u : Timeline α} {s : Pipeline α}
  {a : Pipeline.Action}

/-! ## The fetch that ends first -/

theorem step_eq_none_of_firstStep {as : List Pipeline.Action} (h : firstStep c s as = none) :
    ∀ a ∈ as, s.step c.workers c.fetch a = none := by
  induction as with
  | nil => exact nofun
  | cons b rest ih =>
    unfold firstStep at h
    split at h
    · cases h
    · rename_i hb
      intro a ha
      rcases List.mem_cons.1 ha with rfl | ha
      · exact hb
      · exact ih h a ha

end Timeline

end ChainIndexer.Range
