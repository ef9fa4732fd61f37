import ChainIndexer.Error

/-
  Calls that are made again when they fail for a while.

  A call is repeated while it fails with an error that another attempt may mend, three times at
  most. Between one call and the next there is a pause that grows with the number of calls made.
-/

namespace ChainIndexer

/-- What is done until a result is final: a call is made, or so many milliseconds pass before the
next one. -/
inductive Attempts.Step where
  | call
  | pause (length : Nat)
  deriving DecidableEq

/-- What came of a call that may have been made several times, and what was done for it in turn. -/
structure Attempts (σ α : Type) where
  result : Except Error α
  state : σ
  steps : List Attempts.Step

namespace Attempts

/-- How long a step is waited for. -/
def Step.waiting : Step → Nat
  | call => 0
  | pause length => length

/-- How many calls were made. -/
def calls (a : Attempts σ α) : Nat := a.steps.count .call

/-- The length of all pauses. -/
def paused (a : Attempts σ α) : Nat :=
  a.steps.foldl (fun total step => total + step.waiting) 0

/-- The most calls that are made. -/
def maxCalls : Nat := 3

/-- The pause after the first call. -/
def backoff : Nat := 500

/-- Makes call number `n`, and up to `more` further ones. -/
def startingAt (call : σ → Except Error α × σ) (n : Nat) : Nat → σ → Attempts σ α
  | 0, s =>
    let (result, s) := call s
    ⟨result, s, [.call]⟩
  | more + 1, s =>
    match call s with
    | (.ok a, s) => ⟨.ok a, s, [.call]⟩
    | (.error e, s) =>
      if e.isRetryable then
        let rest := startingAt call (n + 1) more s
        { rest with steps := .call :: .pause (n * backoff) :: rest.steps }
      else ⟨.error e, s, [.call]⟩

/-- Calls until the result is final. -/
def run (call : σ → Except Error α × σ) (s : σ) : Attempts σ α :=
  startingAt call 1 (maxCalls - 1) s

end Attempts

end ChainIndexer
