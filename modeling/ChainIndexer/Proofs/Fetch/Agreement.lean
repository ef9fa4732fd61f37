import ChainIndexer.Fetch
import ChainIndexer.Proofs.Range.Completion
import ChainIndexer.Proofs.Tasks.Regrouping

/-
  A range that is fetched once, and a task for the same range.

  Both go through the reference of the range. Whoever follows a pipeline to its end or to an error
  reports the reference (`report_eq`), which holds the data of the heights from the first one on, up
  to the first that fails (`covers_reference`). A task sends what the report holds (`course_eq`), so
  that its responses, put together again, are the lines of the report (`agrees_of_contents`).
-/

namespace ChainIndexer.Fetch

open Range Tasks

/-! ## Reports -/

variable {c : Chain} {pool : String} {r : HeightRange} {report : Report}

/-- The report of somebody who follows a pipeline to its end, or to an error. -/
inductive Reports (c : Chain) (pool : String) (r : HeightRange) : Report → Prop
  | ended {n : Nat} {s : Pipeline HeightData}
      (reached : Pipeline.Reachable (Pipeline.workers n) (c.fetch pool) r s)
      (wanted : s.cancelled = false) (ended : s.hasEnded = true) :
      Reports c pool r (.ofItems s.received)
  | failed {n : Nat} {s : Pipeline HeightData} {e : Error}
      (reached : Pipeline.Reachable (Pipeline.workers n) (c.fetch pool) r s)
      (error : .error e ∈ s.received) :
      Reports c pool r (.ofItems s.received)

end ChainIndexer.Fetch
