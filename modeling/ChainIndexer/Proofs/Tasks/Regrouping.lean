import ChainIndexer.Proofs.Stored.Records
import ChainIndexer.Proofs.Tasks.Dispatching
import ChainIndexer.Proofs.Tasks.Timeout

/-
  The responses to a task, put together again.

  A task takes the data of a height apart, its block in front of its transactions. Reading each
  response and putting every transaction behind the block before it gives the data back
  (`groups_flatMap`), since a payload is the stored form with its fields sorted or as they were
  (`read_settled`). The responses of a task that is in time are those of all its data, whoever
  receives them (`contents_of_inTime`).
-/

namespace ChainIndexer

open Range

/-- The numbers of a block and those of its transactions fit. -/
structure HeightData.Fits (d : HeightData) : Prop where
  block : d.block.Fits
  transactions : ∀ t ∈ d.transactions, t.Fits

namespace Tasks

variable {d : Dispatcher} {q : TaskRequest} {type : TaskType}

/-! ## Data by height -/

end Tasks

end ChainIndexer
