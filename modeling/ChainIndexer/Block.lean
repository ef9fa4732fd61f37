import ChainIndexer.Time.Instant
import ChainIndexer.Text.Numeral

/-
  Blocks and ranges of heights.

  A block stands at a height from 1 on; height 0 asks for the latest block. A range holds the
  heights from its start up to before its end. `HeightRange.last` is the range that catches up with
  the chain, and `HeightRange.onChain` leaves out height 0.
-/

namespace ChainIndexer

/-- What is kept of a block. -/
structure Block where
  hash : String
  height : Nat
  time : Instant
  chainId : String
  txCount : Nat
  deriving DecidableEq

/-- The newest block that is known. -/
structure LatestMark where
  lastHeight : Nat
  lastHash : String
  lastTime : Instant
  deriving DecidableEq

/-- The mark of a block. -/
def LatestMark.ofBlock (b : Block) : LatestMark :=
  ⟨b.height, b.hash, b.time⟩

/-- A height, or 0 for the latest block. -/
structure HeightHash where
  height : Nat
  hash : String
  deriving DecidableEq

/-- The block up to which somebody knows the chain. -/
structure LatestDataRequest where
  lastHeight : Nat
  lastHash : String
  deriving DecidableEq

/-- The heights from `start` up to before `stop`. -/
structure HeightRange where
  start : Nat
  stop : Nat
  deriving DecidableEq

namespace HeightRange

/-- The heights, ascending. -/
def heights (r : HeightRange) : List Nat :=
  List.range' r.start (r.stop - r.start)

/-- The number of heights. -/
def length (r : HeightRange) : Nat :=
  r.stop - r.start

/-- Whether there is no height. -/
def isEmpty (r : HeightRange) : Bool :=
  r.length == 0

/-- The first heights, at most `count`. -/
def first (r : HeightRange) (count : Nat) : List Nat :=
  List.range' r.start (min count r.length)

/-- The last height. -/
def last? (r : HeightRange) : Option Nat :=
  if r.start < r.stop then some (r.stop - 1) else none

/-- The range without height 0. -/
def onChain (r : HeightRange) : HeightRange :=
  ⟨max r.start 1, r.stop⟩

/-- The range up to `latest` for somebody who asks from `known` on, with 0 for nothing known: never
more than `maximum` heights, and never height 0. -/
def upTo (known maximum latest : Nat) : HeightRange :=
  let start := if known = 0 ∨ latest - known > maximum then latest - maximum else known
  ⟨max start 1, latest⟩

theorem mem_heights {r : HeightRange} {h : Nat} :
    h ∈ r.heights ↔ r.start ≤ h ∧ h < r.stop := by
  simp only [heights, List.mem_range'_1]
  omega

end HeightRange

/-- A height that may have a successor. -/
def nextHeight? (h : Nat) : Option Nat :=
  if h < Text.maxWord64 then some (h + 1) else none

end ChainIndexer
