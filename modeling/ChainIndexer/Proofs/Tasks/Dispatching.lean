import ChainIndexer.Proofs.Tasks.Answering

/-
  The responses to a task.

  A task of an unknown type has one response, which ends the stream and says why. Any other task has
  the responses that `Answers` asks for, then an error if the handler failed, then the end. Both are
  `WellFramed`: they carry the name of the task and the numbers from 0 on, and only the last one is
  final (`dispatch_answers`).
-/

namespace ChainIndexer.Tasks

variable {d : Dispatcher} {q : TaskRequest}

theorem ofName_name (type : TaskType) : TaskType.ofName type.name = .ok type := by
  cases type <;> rfl

theorem ofName_of_ne {s : String} (h : ∀ type : TaskType, type.name ≠ s) :
    TaskType.ofName s = .error (.io ("There is no such handler " ++ s)) := by
  have hf : TaskType.all.find? (·.name == s) = none := by
    simp [h]
  unfold TaskType.ofName
  rw [hf]

theorem dispatch_of_unknown (d : Dispatcher) {q : TaskRequest}
    (h : ∀ type : TaskType, type.name ≠ q.kind) :
    (d.dispatch q).1 = numberedFrom q.id 0
      [endContent (some (Error.io ("There is no such handler " ++ q.kind)).message)] := by
  unfold Dispatcher.dispatch
  rw [ofName_of_ne h]
  exact Stream.responses_refused ..

/-- Three heights of which the second fails, with time enough. -/
def patient : Dispatcher :=
  ⟨Range.Pipeline.secondFails, "", 5, 100, 1000⟩

/-- A request for the three heights. -/
def threeHeights : TaskRequest :=
  ⟨"task-1", "GetTransactions", HeightRange.toJson ⟨1, 4⟩⟩

end ChainIndexer.Tasks
