import Mathlib.Data.Finmap
import ChainIndexer.BlockCache

/-
  The blocks of a cache in a table, and their heights in a queue.

  The table has each block under its height, the queue has the heights in the order in which they
  came in. A block under a height that is in the table takes the place of the old one, and the queue
  stays as it is. Any other height goes to the end of the queue; then the queue is shortened from
  the front, and what leaves the queue leaves the table.
-/

namespace ChainIndexer

/-- A table of blocks by height, and the queue of their heights, the oldest first. -/
structure CacheEntries where
  capacity : Nat
  table : Finmap fun _ : Nat => Block
  queue : List Nat

namespace CacheEntries

/-- No block is kept yet. -/
def new (capacity : Nat) : CacheEntries :=
  ⟨capacity, ∅, []⟩

/-- The block at a height, if it is kept. -/
def get? (e : CacheEntries) (height : Nat) : Option Block :=
  e.table.lookup height

/-- The number of blocks. -/
def size (e : CacheEntries) : Nat :=
  e.table.keys.card

/-- Takes heights from the front of a queue, and their blocks from the table, until there is room
for what is left. -/
def evict (capacity : Nat) (table : Finmap fun _ : Nat => Block) : List Nat → CacheEntries
  | [] => ⟨capacity, table, []⟩
  | oldest :: queue =>
    if capacity < (oldest :: queue).length then evict capacity (table.erase oldest) queue
    else ⟨capacity, table, oldest :: queue⟩

/-- Keeps a block. -/
def set (e : CacheEntries) (b : Block) : CacheEntries :=
  if e.capacity = 0 then e
  else if b.height ∈ e.table then { e with table := e.table.insert b.height b }
  else evict e.capacity (e.table.insert b.height b) (e.queue ++ [b.height])

end CacheEntries

end ChainIndexer
