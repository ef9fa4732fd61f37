import ChainIndexer.Block

/-
  Blocks that were asked for lately.

  At most `capacity` blocks are kept, each under its own height, in the order in which their heights
  came in. A block under a height that is there takes the place of the old one. When there are too
  many, the height that came in first leaves.
-/

namespace ChainIndexer

/-- The blocks that are kept, the oldest height first. -/
structure BlockCache where
  capacity : Nat
  blocks : List Block
  deriving DecidableEq

namespace BlockCache

/-- No block is kept yet. -/
def empty (capacity : Nat) : BlockCache :=
  ⟨capacity, []⟩

/-- The heights of the blocks, the oldest first. -/
def heights (c : BlockCache) : List Nat :=
  c.blocks.map Block.height

/-- The number of blocks. -/
def size (c : BlockCache) : Nat :=
  c.blocks.length

/-- The block at a height, if it is kept. -/
def get? (c : BlockCache) (height : Nat) : Option Block :=
  c.blocks.find? fun b => b.height == height

/-- Puts a block in the place of the one at its height. -/
def replace (b : Block) (blocks : List Block) : List Block :=
  blocks.map fun old => if old.height = b.height then b else old

/-- The blocks that stay when there is room for `capacity`: the last ones. -/
def newest (capacity : Nat) (blocks : List Block) : List Block :=
  blocks.drop (blocks.length - capacity)

/-- Keeps a block. -/
def set (c : BlockCache) (b : Block) : BlockCache :=
  if b.height ∈ c.heights then { c with blocks := replace b c.blocks }
  else { c with blocks := newest c.capacity (c.blocks ++ [b]) }

theorem set_capacity (c : BlockCache) (b : Block) : (c.set b).capacity = c.capacity := by
  unfold set
  split <;> rfl

theorem heights_replace (b : Block) (blocks : List Block) :
    (replace b blocks).map Block.height = blocks.map Block.height := by
  induction blocks with
  | nil => rfl
  | cons x rest ih =>
    by_cases h : x.height = b.height
    · simpa [replace, h] using ih
    · simpa [replace, h] using ih

theorem heights_set (c : BlockCache) (b : Block) :
    (c.set b).heights = if b.height ∈ c.heights then c.heights
      else (c.heights ++ [b.height]).drop (c.size + 1 - c.capacity) := by
  unfold set
  split
  · exact heights_replace b c.blocks
  · simp [heights, newest, size, List.map_drop]

theorem size_set_le (c : BlockCache) (b : Block) (h : c.size ≤ c.capacity) :
    (c.set b).size ≤ c.capacity := by
  unfold set
  split
  · simpa [size, replace] using h
  · simp only [size, newest, List.length_drop]
    omega

theorem nodup_heights_set (c : BlockCache) (b : Block) (h : c.heights.Nodup) :
    (c.set b).heights.Nodup := by
  rw [heights_set]
  split
  · exact h
  · rename_i hb
    refine List.Nodup.sublist (List.drop_sublist _ _) ?_
    rw [List.nodup_append]
    refine ⟨h, by simp, fun a ha b' hb' => ?_⟩
    rw [List.mem_singleton] at hb'
    rintro rfl
    exact hb (hb' ▸ ha)

end BlockCache

end ChainIndexer
