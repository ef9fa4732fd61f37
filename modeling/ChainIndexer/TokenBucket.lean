/-
  A bucket of tokens that limits how often something is done.

  Tokens come in at `rate` per second until the bucket is full; every call takes one. A call that
  finds less than a token is told how long it takes until there is one. Time is given with each
  call, in seconds; a rate of 0 means that there is no limit.
-/

namespace ChainIndexer

/-- A bucket as it was at the time of the last call. -/
structure TokenBucket where
  rate : Rat
  tokens : Rat
  refilled : Rat
  deriving DecidableEq

namespace TokenBucket

/-- The most tokens that a bucket of a rate holds. It has room for one at least. -/
def capacity (rate : Rat) : Rat :=
  if rate ≤ 1 then 1 else rate

/-- A full bucket. -/
def full (rate : Rat) (now : Rat) : TokenBucket :=
  ⟨rate, capacity rate, now⟩

/-- The bucket with the tokens that have come in by now. A clock that goes back brings none. -/
def refill (b : TokenBucket) (now : Rat) : TokenBucket :=
  let elapsed := if b.refilled ≤ now then now - b.refilled else 0
  let tokens := b.tokens + elapsed * b.rate
  { b with tokens := if tokens ≤ capacity b.rate then tokens else capacity b.rate, refilled := now }

/-- Takes a token, or tells the time until there is one. -/
def tryTake (b : TokenBucket) (now : Rat) : Option Rat × TokenBucket :=
  let b := b.refill now
  if 1 ≤ b.tokens then (none, { b with tokens := b.tokens - 1 })
  else (some ((1 - b.tokens) / b.rate), b)

/-- Waits for a token from `now` on: the time at which it is there, and the bucket then. A call that
has waited as long as it was told finds its token. -/
def take (b : TokenBucket) (now : Rat) : Rat × TokenBucket :=
  if b.rate ≤ 0 then (now, b)
  else match b.tryTake now with
    | (none, b) => (now, b)
    | (some pause, b) => (now + pause, (b.tryTake (now + pause)).2)

/-- Takes tokens one after another, and counts them. -/
def takeMany (b : TokenBucket) (now : Rat) : Nat → Nat
  | 0 => 0
  | n + 1 =>
    let (now, b) := b.take now
    b.takeMany now n + 1

example : ((full 2 0).take 0).1 = 0 := by decide +kernel
example : (⟨4, 0, 0⟩ : TokenBucket).tryTake 0 = (some (1 / 4), ⟨4, 0, 0⟩) := by decide +kernel

end TokenBucket

end ChainIndexer
