import Mathlib.Data.List.DropRight
import ChainIndexer.CacheEntries
import ChainIndexer.Proofs.Node.Cache

/-
  Which blocks a cache has, after any number of them were kept.

  A height arrives where it is set while it has no block; setting it again later renews its block
  and not its age. The queue is the last `capacity` of the arrivals (`queue_keeping`), and the table
  has the heights of the queue. Both are what the list of blocks in `BlockCache` says about heights
  and blocks (`InStep`), so the two caches cannot be told apart.
-/

namespace ChainIndexer

/-! ## The last ones of a list -/

section Last

variable {α : Type}

/-- What is no longer among the last ones does not come back. -/
theorem rtake_append_rtake (k : Nat) (l more : List α) :
    (l.rtake k ++ more).rtake k = (l ++ more).rtake k := by
  simp only [List.rtake_eq_reverse_take_reverse, List.reverse_append, List.reverse_reverse,
    List.take_append, List.take_take]
  rw [Nat.min_eq_left (Nat.sub_le _ _)]

theorem mem_take_iff_takeWhile [DecidableEq α] (a : α) (l : List α) (k : Nat) :
    a ∈ l.take k ↔ a ∈ l ∧ (l.takeWhile (· ≠ a)).length < k := by
  induction l generalizing k with
  | nil => simp
  | cons x rest ih =>
    cases k with
    | zero => simp
    | succ k =>
      by_cases hx : x = a
      · simp [hx]
      · simp [hx, Ne.symm hx, ih]

/-- Whether something is among the last ones is told by what comes after its last place. -/
theorem mem_rtake_iff [DecidableEq α] (a : α) (l : List α) (k : Nat) :
    a ∈ l.rtake k ↔ a ∈ l ∧ (l.rtakeWhile (· ≠ a)).length < k := by
  rw [List.rtake_eq_reverse_take_reverse, List.mem_reverse, mem_take_iff_takeWhile,
    List.mem_reverse, List.rtakeWhile, List.length_reverse]

end Last

namespace BlockCache

variable {c : BlockCache} {b : Block} {blocks : List Block} {height : Nat}

/-- The block at a height in a list of blocks. -/
def at? (height : Nat) (blocks : List Block) : Option Block :=
  blocks.find? fun b => b.height == height

theorem isSome_at? : (at? height blocks).isSome ↔ height ∈ blocks.map Block.height := by
  simp [at?]

theorem at?_eq_none_iff : at? height blocks = none ↔ height ∉ blocks.map Block.height := by
  rw [← isSome_at?, Option.not_isSome_iff_eq_none]

theorem at?_append (height : Nat) (before after : List Block) :
    at? height (before ++ after) = (at? height before).or (at? height after) :=
  List.find?_append

theorem at?_singleton (height : Nat) (b : Block) :
    at? height [b] = if height = b.height then some b else none := by
  by_cases h : b.height = height
  · simp [at?, h]
  · simp [at?, h, Ne.symm h]

theorem height_of_at? (h : at? height blocks = some b) : b.height = height := by
  simpa using List.find?_some h

theorem at?_replace (b : Block) (blocks : List Block) (height : Nat) :
    at? height (replace b blocks) =
      if height = b.height then (at? height blocks).map fun _ => b else at? height blocks := by
  have same : (fun x : Block => x.height == height) ∘
      (fun old => if old.height = b.height then b else old) = fun x => x.height == height := by
    funext old
    by_cases ho : old.height = b.height
    · simp [ho]
    · simp [ho]
  have hm : at? height (replace b blocks) =
      (at? height blocks).map fun old => if old.height = b.height then b else old := by
    rw [at?, replace, List.find?_map, same]
    rfl
  rw [hm]
  cases ha : at? height blocks with
  | none => simp
  | some x =>
    have hx := height_of_at? ha
    simp only [Option.map_some, hx]
    split
    · rfl
    · rfl

/-- Without the first ones, a list of blocks at distinct heights has no block at theirs. -/
theorem at?_drop (distinct : (blocks.map Block.height).Nodup) (n height : Nat) :
    at? height (blocks.drop n) =
      if height ∈ (blocks.map Block.height).take n then none else at? height blocks := by
  have hs : at? height blocks = (at? height (blocks.take n)).or (at? height (blocks.drop n)) := by
    rw [← at?_append, List.take_append_drop]
  rw [← List.take_append_drop n (blocks.map Block.height), List.nodup_append'] at distinct
  rw [← List.map_take, ← List.map_drop] at distinct
  rw [← List.map_take]
  split
  · rename_i hm
    rw [at?_eq_none_iff]
    exact distinct.2.2 hm
  · rename_i hm
    rw [hs, at?_eq_none_iff.2 hm, Option.none_or]

/-- Nothing is kept where there is no room. -/
theorem set_of_capacity_eq_zero (none : c.capacity = 0) (room : c.size ≤ c.capacity) (b : Block) :
    c.set b = c := by
  obtain ⟨capacity, blocks⟩ := c
  obtain rfl : blocks = [] := List.length_eq_zero_iff.1 (Nat.le_zero.1 (none ▸ room))
  obtain rfl : capacity = 0 := none
  rfl

theorem get?_set_of_mem (there : b.height ∈ c.heights) (height : Nat) :
    (c.set b).get? height = if height = b.height then some b else c.get? height := by
  have hr : (c.set b).get? height = at? height (replace b c.blocks) := by
    rw [set, if_pos there]
    rfl
  rw [hr, at?_replace]
  split
  · rename_i h
    obtain ⟨old, ho⟩ := Option.isSome_iff_exists.1 (isSome_at?.2 (h ▸ there))
    rw [ho, Option.map_some]
  · rfl

theorem get?_set_of_notMem (absent : b.height ∉ c.heights) (distinct : c.heights.Nodup)
    (height : Nat) :
    (c.set b).get? height =
      if height ∈ (c.heights ++ [b.height]).take (c.size + 1 - c.capacity) then none
      else if height = b.height then some b else c.get? height := by
  have hh : (c.blocks ++ [b]).map Block.height = c.heights ++ [b.height] := List.map_append
  have hn : (c.heights ++ [b.height]).Nodup := List.nodup_append'.2
    ⟨distinct, List.nodup_singleton _, List.disjoint_singleton.2 absent⟩
  have hr : (c.set b).get? height =
      at? height ((c.blocks ++ [b]).drop (c.size + 1 - c.capacity)) := by
    rw [set, if_neg absent, newest, List.length_append]
    rfl
  rw [hr, at?_drop (hh ▸ hn), hh, at?_append, at?_singleton]
  split
  · rfl
  · split
    · rename_i h
      rw [at?_eq_none_iff.2 (h ▸ absent), Option.none_or]
    · rw [Option.or_none]
      rfl

end BlockCache

namespace CacheEntries

variable {e : CacheEntries} {b : Block} {bs : List Block} {capacity height : Nat}

/-! ## What keeping a block does -/

theorem mem_table_iff : height ∈ e.table ↔ (e.get? height).isSome :=
  Finmap.lookup_isSome.symm

theorem capacity_evict (capacity : Nat) (table : Finmap fun _ : Nat => Block) (queue : List Nat) :
    (evict capacity table queue).capacity = capacity := by
  induction queue generalizing table with
  | nil => rfl
  | cons oldest queue ih =>
    unfold evict
    split
    · exact ih _
    · rfl

theorem queue_evict (capacity : Nat) (table : Finmap fun _ : Nat => Block) (queue : List Nat) :
    (evict capacity table queue).queue = queue.rtake capacity := by
  induction queue generalizing table with
  | nil => simp [evict]
  | cons oldest queue ih =>
    unfold evict
    split
    · rename_i h
      rw [ih, List.rtake, List.rtake, List.length_cons, Nat.succ_sub (Nat.le_of_lt_succ h),
        List.drop_succ_cons]
    · rename_i h
      rw [List.rtake, Nat.sub_eq_zero_of_le (Nat.not_lt.1 h), List.drop_zero]

/-- A height that leaves the queue leaves the table, and no other does. -/
theorem get?_evict (capacity : Nat) (table : Finmap fun _ : Nat => Block) (queue : List Nat)
    (height : Nat) :
    (evict capacity table queue).get? height =
      if height ∈ queue.take (queue.length - capacity) then none else table.lookup height := by
  induction queue generalizing table with
  | nil => simp [evict, get?]
  | cons oldest queue ih =>
    unfold evict
    split
    · rename_i h
      rw [ih, List.length_cons, Nat.succ_sub (Nat.le_of_lt_succ h), List.take_succ_cons]
      by_cases ho : height = oldest
      · subst ho
        simp
      · simp [ho, Finmap.lookup_erase_ne]
    · rename_i h
      rw [Nat.sub_eq_zero_of_le (Nat.not_lt.1 h), List.take_zero, if_neg List.not_mem_nil]
      rfl

theorem capacity_set (e : CacheEntries) (b : Block) : (e.set b).capacity = e.capacity := by
  unfold set
  split
  · rfl
  · split
    · rfl
    · exact capacity_evict _ _ _

theorem lookup_insert (table : Finmap fun _ : Nat => Block) (b : Block) (height : Nat) :
    (table.insert b.height b).lookup height =
      if height = b.height then some b else table.lookup height := by
  split
  · rename_i h
    rw [h, Finmap.lookup_insert]
  · rename_i h
    exact Finmap.lookup_insert_of_ne table h

/-- A block at a height that is there takes the place of the old one and keeps its age. -/
theorem set_of_mem (pos : e.capacity ≠ 0) (there : b.height ∈ e.table) :
    e.set b = { e with table := e.table.insert b.height b } := by
  rw [set, if_neg pos, if_pos there]

theorem set_of_notMem (pos : e.capacity ≠ 0) (absent : b.height ∉ e.table) :
    e.set b = evict e.capacity (e.table.insert b.height b) (e.queue ++ [b.height]) := by
  rw [set, if_neg pos, if_neg absent]

theorem get?_set_of_mem (pos : e.capacity ≠ 0) (there : b.height ∈ e.table) (height : Nat) :
    (e.set b).get? height = if height = b.height then some b else e.get? height := by
  rw [set_of_mem pos there]
  exact lookup_insert e.table b height

theorem get?_set_of_notMem (pos : e.capacity ≠ 0) (absent : b.height ∉ e.table) (height : Nat) :
    (e.set b).get? height =
      if height ∈ (e.queue ++ [b.height]).take (e.queue.length + 1 - e.capacity) then none
      else if height = b.height then some b else e.get? height := by
  rw [set_of_notMem pos absent, get?_evict, lookup_insert, List.length_append]
  rfl

theorem queue_set (e : CacheEntries) (b : Block) :
    (e.set b).queue = if e.capacity = 0 ∨ b.height ∈ e.table then e.queue
      else (e.queue ++ [b.height]).rtake e.capacity := by
  by_cases hz : e.capacity = 0
  · rw [set, if_pos hz, if_pos (.inl hz)]
  · by_cases there : b.height ∈ e.table
    · rw [set_of_mem hz there, if_pos (.inr there)]
    · rw [set_of_notMem hz there, queue_evict, if_neg (not_or.2 ⟨hz, there⟩)]

/-! ## The table and the list -/

/-- The table and the queue say what a list of blocks does, which has no height twice and no more
blocks than there is room for. -/
structure InStep (e : CacheEntries) (c : BlockCache) : Prop where
  capacity : e.capacity = c.capacity
  queue : e.queue = c.heights
  blocks : ∀ height, e.get? height = c.get? height
  distinct : c.heights.Nodup
  room : c.size ≤ c.capacity

variable {c : BlockCache}

theorem inStep_new (capacity : Nat) : InStep (new capacity) (.empty capacity) :=
  ⟨rfl, rfl, fun _ => rfl, List.nodup_nil, Nat.zero_le _⟩

theorem mem_table_iff_mem_queue (hi : InStep e c) : height ∈ e.table ↔ height ∈ e.queue := by
  rw [mem_table_iff, hi.blocks, hi.queue]
  exact BlockCache.isSome_at?

theorem inStep_set (hi : InStep e c) (b : Block) : InStep (e.set b) (c.set b) := by
  have hc : (e.set b).capacity = (c.set b).capacity := by
    rw [capacity_set, BlockCache.set_capacity, hi.capacity]
  have hl : e.queue.length = c.size := by
    rw [hi.queue, BlockCache.heights, List.length_map, BlockCache.size]
  suffices hs : (e.set b).queue = (c.set b).heights ∧ ∀ h, (e.set b).get? h = (c.set b).get? h from
    ⟨hc, hs.1, hs.2, BlockCache.nodup_heights_set c b hi.distinct,
      (BlockCache.set_capacity c b).symm ▸ BlockCache.size_set_le c b hi.room⟩
  by_cases hz : e.capacity = 0
  · rw [set, if_pos hz, BlockCache.set_of_capacity_eq_zero (hi.capacity ▸ hz) hi.room]
    exact ⟨hi.queue, hi.blocks⟩
  · rw [queue_set, BlockCache.heights_set, ← hi.queue]
    by_cases there : b.height ∈ e.table
    · have hq := (mem_table_iff_mem_queue hi).1 there
      refine ⟨by rw [if_pos (.inr there), if_pos hq], fun h => ?_⟩
      rw [get?_set_of_mem hz there, BlockCache.get?_set_of_mem (hi.queue ▸ hq), hi.blocks]
    · have hq := fun hq => there ((mem_table_iff_mem_queue hi).2 hq)
      refine ⟨?_, fun h => ?_⟩
      · rw [if_neg (not_or.2 ⟨hz, there⟩), if_neg hq, List.rtake, List.length_append, hl,
          hi.capacity]
        rfl
      · rw [get?_set_of_notMem hz there,
          BlockCache.get?_set_of_notMem (hi.queue ▸ hq) hi.distinct, hl, hi.queue, hi.capacity,
          hi.blocks]

theorem inStep_foldl (hi : InStep e c) (bs : List Block) :
    InStep (bs.foldl set e) (bs.foldl BlockCache.set c) := by
  induction bs generalizing e c with
  | nil => exact hi
  | cons b rest ih => exact ih (inStep_set hi b)

/-! ## Arrivals -/

/-- The cache after some blocks were kept, one after another. -/
def keeping (capacity : Nat) (bs : List Block) : CacheEntries :=
  bs.foldl set (new capacity)

/-- The heights of the blocks that find their height without a block, as they are kept. -/
def arrivalsFrom (e : CacheEntries) : List Block → List Nat
  | [] => []
  | b :: rest =>
    if b.height ∈ e.table then arrivalsFrom (e.set b) rest
    else b.height :: arrivalsFrom (e.set b) rest

/-- The heights that come into a cache, each as often as it does. -/
def arrivals (capacity : Nat) (bs : List Block) : List Nat :=
  arrivalsFrom (new capacity) bs

/-- What came in after a height did for the last time. -/
def since (height : Nat) (heights : List Nat) : List Nat :=
  heights.rtakeWhile (· ≠ height)

theorem keeping_concat (capacity : Nat) (bs : List Block) (b : Block) :
    keeping capacity (bs ++ [b]) = (keeping capacity bs).set b := by
  rw [keeping, List.foldl_concat, keeping]

theorem capacity_keeping (capacity : Nat) (bs : List Block) :
    (keeping capacity bs).capacity = capacity := by
  induction bs using List.reverseRecOn with
  | nil => rfl
  | append_singleton bs b ih => rw [keeping_concat, capacity_set, ih]

theorem arrivalsFrom_concat (e : CacheEntries) (bs : List Block) (b : Block) :
    arrivalsFrom e (bs ++ [b]) =
      if b.height ∈ (bs.foldl set e).table then arrivalsFrom e bs
      else arrivalsFrom e bs ++ [b.height] := by
  induction bs generalizing e with
  | nil => rfl
  | cons x rest ih =>
    rw [List.cons_append, arrivalsFrom, arrivalsFrom, ih, List.foldl_cons]
    split
    · rfl
    · split
      · rfl
      · rfl

theorem arrivals_concat (capacity : Nat) (bs : List Block) (b : Block) :
    arrivals capacity (bs ++ [b]) =
      if b.height ∈ (keeping capacity bs).table then arrivals capacity bs
      else arrivals capacity bs ++ [b.height] :=
  arrivalsFrom_concat (new capacity) bs b

/-- The queue has the last of the arrivals, as many as there is room for. -/
theorem queue_keeping (capacity : Nat) (bs : List Block) :
    (keeping capacity bs).queue = (arrivals capacity bs).rtake capacity := by
  induction bs using List.reverseRecOn with
  | nil => exact (List.rtake_nil capacity).symm
  | append_singleton bs b ih =>
    rw [keeping_concat, queue_set, capacity_keeping, arrivals_concat, ih]
    by_cases there : b.height ∈ (keeping capacity bs).table
    · rw [if_pos (.inr there), if_pos there]
    · rw [if_neg there]
      split
      · rename_i h
        rw [h.resolve_right there, List.rtake_zero, List.rtake_zero]
      · exact rtake_append_rtake capacity _ _

theorem inStep_keeping (capacity : Nat) (bs : List Block) :
    InStep (keeping capacity bs) (bs.foldl BlockCache.set (.empty capacity)) :=
  inStep_foldl (inStep_new capacity) bs

theorem mem_table_iff_mem_rtake (capacity : Nat) (bs : List Block) (height : Nat) :
    height ∈ (keeping capacity bs).table ↔ height ∈ (arrivals capacity bs).rtake capacity := by
  rw [mem_table_iff_mem_queue (inStep_keeping capacity bs), queue_keeping]

/-- The heights that come in are those at which a block was ever kept. -/
theorem mem_arrivals_iff (capacity : Nat) (bs : List Block) (height : Nat) :
    height ∈ arrivals capacity bs ↔ ∃ b ∈ bs, b.height = height := by
  induction bs using List.reverseRecOn with
  | nil => simp [arrivals, arrivalsFrom]
  | append_singleton bs b ih =>
    have hs : (∃ x ∈ bs ++ [b], x.height = height) ↔
        (∃ x ∈ bs, x.height = height) ∨ height = b.height := by
      simp [or_and_right, exists_or, eq_comm]
    rw [hs, ← ih, arrivals_concat]
    split
    · rename_i there
      -- A height that has a block came in before.
      have hb := (mem_table_iff_mem_rtake capacity bs b.height).1 there
      have before := ((mem_rtake_iff b.height _ capacity).1 hb).1
      refine ⟨.inl, ?_⟩
      rintro (h | rfl)
      · exact h
      · exact before
    · rw [List.mem_append, List.mem_singleton]

theorem size_keeping (capacity : Nat) (bs : List Block) :
    (keeping capacity bs).size = (keeping capacity bs).queue.length := by
  have hi := inStep_keeping capacity bs
  have hk : (keeping capacity bs).table.keys = (keeping capacity bs).queue.toFinset := by
    ext height
    rw [Finmap.mem_keys, List.mem_toFinset, mem_table_iff_mem_queue hi]
  rw [size, hk, List.toFinset_card_of_nodup (hi.queue ▸ hi.distinct)]

/-- Whatever the capacity and whichever blocks are kept one after another: the queue has no height
twice and has those of the table; there are no more blocks than the capacity says; a block that is
found under a height is the last one that was kept at it, and of that height; and a height has a
block if and only if one was ever kept at it and fewer heights than the capacity, which is then not
0, came in after it did so for the last time. To keep a block at a height that has one puts it in
the place of the old one and leaves the queue, so it brings no arrival. A cache that has only a list
of blocks has the same heights in the same order, and the same block under each. -/
theorem keeping_newest (capacity : Nat) (bs : List Block) :
    (keeping capacity bs).queue.Nodup ∧
      (∀ h, h ∈ (keeping capacity bs).queue ↔ h ∈ (keeping capacity bs).table) ∧
      (keeping capacity bs).size ≤ capacity ∧
      (∀ h b, (keeping capacity bs).get? h = some b →
        BlockCache.lastAt h bs = some b ∧ b.height = h) ∧
      (∀ h, h ∈ (keeping capacity bs).table ↔
        (∃ b ∈ bs, b.height = h) ∧ 0 < capacity ∧
          (since h (arrivals capacity bs)).length < capacity) ∧
      (∀ b, b.height ∈ (keeping capacity bs).table →
        (keeping capacity (bs ++ [b])).queue = (keeping capacity bs).queue ∧
          arrivals capacity (bs ++ [b]) = arrivals capacity bs ∧
          ∀ h, (keeping capacity (bs ++ [b])).get? h =
            if h = b.height then some b else (keeping capacity bs).get? h) ∧
      (keeping capacity bs).queue = (bs.foldl BlockCache.set (.empty capacity)).heights ∧
      ∀ h, (keeping capacity bs).get? h = (bs.foldl BlockCache.set (.empty capacity)).get? h := by
  have hi := inStep_keeping capacity bs
  have hmem := fun h => mem_table_iff_mem_rtake capacity bs h
  refine ⟨hi.queue ▸ hi.distinct, fun h => (mem_table_iff_mem_queue hi).symm, ?_, ?_, ?_, ?_,
    hi.queue, hi.blocks⟩
  · rw [size_keeping, hi.queue, BlockCache.heights, List.length_map]
    exact hi.room.trans (hi.capacity ▸ (capacity_keeping capacity bs).le)
  · intro h b hb
    rw [hi.blocks] at hb
    obtain ⟨hm, rfl⟩ := BlockCache.mem_of_get? hb
    exact ⟨BlockCache.remembers_foldl bs (BlockCache.remembers_empty capacity) b hm, rfl⟩
  · intro h
    rw [hmem, mem_rtake_iff, mem_arrivals_iff]
    exact and_congr_right fun _ => ⟨fun hlt => ⟨Nat.zero_lt_of_lt hlt, hlt⟩, And.right⟩
  · intro b there
    have hpos : (keeping capacity bs).capacity ≠ 0 := by
      rw [capacity_keeping]
      rintro rfl
      exact absurd ((hmem b.height).1 there) (by simp)
    rw [keeping_concat, queue_set, if_pos (.inr there), arrivals_concat, if_pos there]
    exact ⟨rfl, rfl, get?_set_of_mem hpos there⟩

-- With room for two, a height that is set again in between still leaves before a later one.
example : (keeping 2 ([1, 2, 1, 3].map fun h => ⟨"", h, Instant.epoch, "", 0⟩)).queue = [2, 3] := by
  decide

end CacheEntries

end ChainIndexer
