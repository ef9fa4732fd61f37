import ChainIndexer.Node.Client
import ChainIndexer.Proofs.Outcome
import ChainIndexer.Proofs.Node.Retrying

/-
  A client with a cache answers as its node does.

  A cache holds, of the blocks that were ever kept, no other than the last one of each height
  (`remembers_foldl`). A client keeps what it has read for a height above 0 and then checked; so
  whatever comes out of the cache is of the expected chain, and came from the node at some call. The
  node is free to answer as it likes, with blocks of other heights than those asked for. Where it
  answers each height in one way, a block that is kept under a height is what the node would answer
  now (`getBlock_through_cache`).
-/

namespace ChainIndexer

/-! ## What a cache holds -/

namespace BlockCache

variable {c : BlockCache} {b x : Block} {past bs : List Block} {height : Nat}

/-- The last of some blocks at a height. -/
def lastAt (height : Nat) (bs : List Block) : Option Block :=
  (bs.filter fun b => b.height == height).getLast?

theorem lastAt_append_self (bs : List Block) (b : Block) :
    lastAt b.height (bs ++ [b]) = some b := by
  have hb : [b].filter (fun x => x.height == b.height) = [b] := by simp
  unfold lastAt
  rw [List.filter_append, hb, List.getLast?_concat]

theorem lastAt_append_of_ne (bs : List Block) (h : b.height ≠ height) :
    lastAt height (bs ++ [b]) = lastAt height bs := by
  unfold lastAt
  rw [List.filter_append, List.filter_cons_of_neg (by simpa using h), List.filter_nil,
    List.append_nil]

theorem mem_of_lastAt (h : lastAt height bs = some b) : b ∈ bs :=
  (List.mem_filter.1 (List.mem_of_getLast? h)).1

theorem mem_of_get? (h : c.get? height = some b) : b ∈ c.blocks ∧ b.height = height := by
  refine ⟨List.mem_of_find?_eq_some h, ?_⟩
  simpa using List.find?_some h

/-- A cache that keeps a block has it, and of the others those at other heights. -/
theorem mem_set (h : x ∈ (c.set b).blocks) : x = b ∨ x ∈ c.blocks ∧ x.height ≠ b.height := by
  unfold set at h
  split at h
  · obtain ⟨old, hm, rfl⟩ := List.mem_map.1 h
    split
    · exact .inl rfl
    · rename_i hne
      exact .inr ⟨hm, hne⟩
  · rename_i hb
    rcases List.mem_append.1 (List.mem_of_mem_drop h) with hm | hm
    · exact .inr ⟨hm, fun he => hb (List.mem_map.2 ⟨x, hm, he⟩)⟩
    · exact .inl (List.mem_singleton.1 hm)

/-- Of the blocks that were kept, a cache holds no other than the last one of each height. -/
def Remembers (past : List Block) (c : BlockCache) : Prop :=
  ∀ b ∈ c.blocks, lastAt b.height past = some b

theorem remembers_empty (capacity : Nat) : Remembers [] (empty capacity) :=
  fun _ hb => absurd hb List.not_mem_nil

theorem remembers_set (b : Block) (hi : Remembers past c) : Remembers (past ++ [b]) (c.set b) := by
  intro x hx
  rcases mem_set hx with rfl | ⟨hm, hne⟩
  · exact lastAt_append_self past x
  · rw [lastAt_append_of_ne past hne.symm]
    exact hi x hm

theorem remembers_foldl (bs : List Block) (hi : Remembers past c) :
    Remembers (past ++ bs) (bs.foldl set c) := by
  induction bs generalizing past c with
  | nil =>
    rw [List.append_nil]
    exact hi
  | cons b rest ih =>
    rw [← List.singleton_append, ← List.append_assoc]
    exact ih (remembers_set b hi)

end BlockCache

/-! ## Calls that are made again -/

namespace Attempts

variable {σ α : Type} {call : σ → Except Error α × σ}

/-- A call that always comes to the same comes to that. -/
theorem result_startingAt {r : Except Error α} (h : ∀ s, (call s).1 = r) (n more : Nat) (s : σ) :
    (startingAt call n more s).result = r := by
  obtain ⟨k, -, -, hk, -⟩ := startingAt_eq call n more s
  exact hk.trans (h _)

theorem stateAfter_carry (g : σ → σ) (h : ∀ s, call (g s) = ((call s).1, g (call s).2)) (k : Nat)
    (s : σ) : stateAfter call k (g s) = g (stateAfter call k s) := by
  induction k generalizing s with
  | zero => rfl
  | succ k ih =>
    rw [stateAfter, h]
    exact ih (call s).2

/-- A part of the state that a call only carries along is only carried along. -/
theorem startingAt_carry (g : σ → σ) (h : ∀ s, call (g s) = ((call s).1, g (call s).2))
    (n more : Nat) (s : σ) :
    (startingAt call n more (g s)).result = (startingAt call n more s).result ∧
      (startingAt call n more (g s)).state = g (startingAt call n more s).state := by
  have ho : outcome call (g s) = outcome call s := by
    funext k
    rw [outcome, stateAfter_carry g h, h]
    rfl
  obtain ⟨j, hj, hgs⟩ := startingAt_last call n more (g s)
  obtain ⟨k, hk, hs⟩ := startingAt_last call n more s
  rw [ho] at hj hgs
  obtain rfl := isLast_unique hj hk
  rw [hgs, hs]
  exact ⟨rfl, stateAfter_carry g h j s⟩

end Attempts

/-! ## Steady nodes -/

namespace Node

theorem needed_eq_ok {α : Type} {text : String} {o : Option α} {a : α}
    (h : needed text o = .ok a) : o = some a := by
  cases o with
  | none => cases h
  | some a' =>
    cases h
    rfl

/-- A block has the height that its header says. -/
theorem height_of_block {r : BlockReply} {b : Block} (h : r.block = .ok b) :
    ∃ body header, (r.newer <|> r.older) = some body ∧ body.header = some header ∧
      (b.height : Int) = header.height := by
  unfold BlockReply.block at h
  obtain ⟨body, hbody, h⟩ := Outcome.bind_eq_ok.1 h
  obtain ⟨header, hheader, h⟩ := Outcome.bind_eq_ok.1 h
  obtain ⟨parts, _, h⟩ := Outcome.bind_eq_ok.1 h
  obtain ⟨height, hheight, h⟩ := Outcome.bind_eq_ok.1 h
  obtain ⟨time, _, h⟩ := Outcome.bind_eq_ok.1 h
  refine ⟨body, header, needed_eq_ok hbody, needed_eq_ok hheader, ?_⟩
  obtain rfl := Outcome.pure_eq_ok.1 h
  have hu := Outcome.mapError_eq_ok.1 hheight
  unfold Text.toUnsigned at hu
  split at hu
  · cases hu
  · rename_i hn
    cases hu
    exact Int.toNat_of_nonneg (Int.not_lt.1 hn)

/-- Asked again for the block at a height, a node answers the same, and about that height. Its
latest block may change. -/
structure IsSteady (n : Node σ) : Prop where
  same : ∀ height x y, 0 < height → (n.block height x).1 = (n.block height y).1
  heights : ∀ height x reply b, 0 < height → (n.block height x).1.answer = .ok reply →
    reply.block = .ok b → b.height = height

end Node

/-! ## Blocks from a node -/

namespace Client

open Node (Asked Reply)

variable {σ α : Type} {c : Client σ} {s u : Session σ} {height : Nat} {b : Block} {e : Error}

/-- A call that does not look at the cache. -/
def Carries (call : Call σ α) : Prop :=
  ∀ (s : Session σ) (cache : BlockCache), call { s with cache := cache } =
    ((call s).1, { (call s).2 with cache := cache })

theorem carries_ask (limit : Nat) (asked : Asked) (question : σ → Reply α × σ) :
    Carries (ask limit asked question) := by
  intro s cache
  unfold ask
  dsimp only
  split
  · rfl
  · rfl

theorem carries_read (limit : Nat) (asked : Asked) (question : σ → Reply α × σ) :
    Carries (read limit asked question) := by
  intro s cache
  obtain ⟨hr, hs⟩ := Attempts.startingAt_carry (fun s => { s with cache := cache })
    (fun s => carries_ask limit asked question s cache) 1 (Attempts.maxCalls - 1) s
  exact Prod.ext hr hs

theorem carries_readBlock (c : Client σ) (height : Nat) : Carries (c.readBlock height) := by
  intro s cache
  unfold readBlock
  split
  · rfl
  · rw [carries_read]

/-- A call that does not look at the cache leaves it as it was. -/
theorem cache_of_carries {call : Call σ α} (h : Carries call) (s : Session σ) :
    (call s).2.cache = s.cache :=
  congrArg (fun r => r.2.cache) (h s s.cache)

/-- A block of the chain that is expected, if one is. -/
def Expects (c : Client σ) (b : Block) : Prop :=
  c.chainId = "" ∨ b.chainId = c.chainId

theorem checkChain_eq_ok {b' : Block} (h : c.checkChain b = .ok b') : b' = b ∧ c.Expects b := by
  unfold checkChain at h
  split at h
  · rename_i he
    cases h
    exact ⟨rfl, he⟩
  · cases h

/-- A block that was read is what the node answered, and it passed the check. -/
theorem exists_of_readBlock (h : (c.readBlock height s).1 = .ok b) :
    ∃ reply, (read c.blockLimit (.plain (blockQuestion height)) (c.node.block height) s).1 =
      .ok reply ∧ reply.block = .ok b ∧ c.Expects b := by
  unfold readBlock at h
  split at h
  · cases h
  · obtain ⟨reply, hr, hb⟩ := Outcome.bind_eq_ok.1 h
    obtain ⟨b', hb', hc⟩ := Outcome.bind_eq_ok.1 hb
    obtain ⟨rfl, he⟩ := checkChain_eq_ok hc
    exact ⟨reply, hr, hb', he⟩

theorem expects_of_readBlock (h : (c.readBlock height s).1 = .ok b) : c.Expects b := by
  obtain ⟨_, _, _, expected⟩ := exists_of_readBlock h
  exact expected

theorem ask_eq_ok {limit : Nat} {asked : Asked} {question : σ → Reply α × σ} {a : α}
    (h : (ask limit asked question s).1 = .ok a) : (question s.node).1.answer = .ok a := by
  unfold ask at h
  dsimp only at h
  split at h
  · cases h
  · exact Outcome.mapError_eq_ok.1 h

theorem fst_ask {limit : Nat} {asked : Asked} {question : σ → Reply α × σ} {s u : Session σ}
    (h : (question s.node).1 = (question u.node).1) :
    (ask limit asked question s).1 = (ask limit asked question u).1 := by
  unfold ask
  dsimp only
  rw [h]
  split
  · rfl
  · rfl

/-- What a node always answers is what a client reads. -/
theorem fst_read {limit : Nat} {asked : Asked} {question : σ → Reply α × σ}
    (h : ∀ x y, (question x).1 = (question y).1) (s u : Session σ) :
    (read limit asked question s).1 = (ask limit asked question u).1 :=
  Attempts.result_startingAt (fun v => fst_ask (h v.node u.node)) 1 (Attempts.maxCalls - 1) s

/-- A steady node is read the same way at any time. -/
theorem readBlock_of_isSteady (hn : c.node.IsSteady) (hh : 0 < height) (s u : Session σ) :
    (c.readBlock height s).1 = (c.readBlock height u).1 := by
  have hq := fun x y => hn.same height x y hh
  unfold readBlock
  split
  · rfl
  · dsimp only
    rw [fst_read hq s u, fst_read hq u u]

theorem height_of_readBlock (hn : c.node.IsSteady) (hh : 0 < height)
    (h : (c.readBlock height s).1 = .ok b) : b.height = height := by
  have hq := fun x y => hn.same height x y hh
  obtain ⟨reply, hr, hb, _⟩ := exists_of_readBlock h
  rw [fst_read hq s s] at hr
  exact hn.heights height s.node reply b hh (ask_eq_ok hr) hb

/-! ## Calls for blocks -/

/-- The blocks that a call for a block puts into the cache. -/
def keptBy (c : Client σ) (height : Nat) (s : Session σ) : List Block :=
  match cached? s height, (c.readBlock height s).1 with
  | none, .ok b => if 0 < height then [b] else []
  | _, _ => []

/-- What a call for a block keeps and comes to. -/
inductive Gets (c : Client σ) (height : Nat) (s : Session σ) :
    List Block → Except Error Block × Session σ → Prop
  | cached {b : Block} (named : 0 < height) (found : s.cache.get? height = some b) :
      Gets c height s [] (.ok b, s)
  | kept {b : Block} {u : Session σ} (named : 0 < height)
      (answer : c.readBlock height s = (.ok b, u)) :
      Gets c height s [b] (.ok b, { u with cache := u.cache.set b })
  | latest {b : Block} {u : Session σ} (unnamed : height = 0)
      (answer : c.readBlock height s = (.ok b, u)) :
      Gets c height s [] (.ok b, u)
  | failed {e : Error} {u : Session σ} (answer : c.readBlock height s = (.error e, u)) :
      Gets c height s [] (.error e, u)

theorem gets_getBlock (c : Client σ) (height : Nat) (s : Session σ) :
    Gets c height s (c.keptBy height s) (c.getBlock height s) := by
  unfold keptBy getBlock
  cases hc : cached? s height with
  | some b =>
    unfold cached? at hc
    split at hc
    · rename_i hh
      exact .cached hh hc
    · cases hc
  | none =>
    rcases hr : c.readBlock height s with ⟨e | b, u⟩
    · exact .failed hr
    · unfold keep
      dsimp only
      split
      · rename_i hh
        exact .kept hh hr
      · rename_i hh
        exact .latest (Nat.eq_zero_of_not_pos hh) hr

/-- The sessions that come about by calls for blocks, each with the blocks that were kept. -/
inductive Called (c : Client σ) (capacity : Nat) : List Block → Session σ → Prop
  | start (node : σ) (rest : Node.RestState) :
      Called c capacity [] ⟨node, .empty capacity, rest, []⟩
  | call {past : List Block} {s : Session σ} (before : Called c capacity past s) (height : Nat) :
      Called c capacity (past ++ c.keptBy height s) (c.getBlock height s).2

variable {capacity : Nat} {past kept : List Block} {r : Except Error Block × Session σ}

theorem cache_of_gets (h : Gets c height s kept r) :
    r.2.cache = kept.foldl BlockCache.set s.cache := by
  have hk := cache_of_carries (carries_readBlock c height) s
  cases h with
  | cached named found => rfl
  | @kept b u named answer =>
    rw [answer] at hk
    exact congrArg (BlockCache.set · b) hk
  | latest unnamed answer => rwa [answer] at hk
  | failed answer => rwa [answer] at hk

/-- A call that fails keeps nothing. -/
theorem cache_of_gets_error (h : Gets c height s kept r) (he : r.1 = .error e) :
    r.2.cache = s.cache := by
  have hk := cache_of_gets h
  cases h with
  | failed answer => exact hk
  | _ => cases he

theorem expects_of_gets (h : Gets c height s kept r) (hb : b ∈ kept) : c.Expects b := by
  cases h with
  | kept named answer =>
    rw [List.mem_singleton.1 hb]
    exact expects_of_readBlock (congrArg Prod.fst answer)
  | _ => exact absurd hb List.not_mem_nil

/-- What is kept is what a steady node answers about its height. -/
theorem readBlock_of_gets (hn : c.node.IsSteady) (h : Gets c height s kept r) (hb : b ∈ kept)
    (u : Session σ) : (c.readBlock b.height u).1 = .ok b := by
  cases h with
  | kept named answer =>
    -- The block is kept under its own height, which is the one that was asked for.
    obtain rfl := List.mem_singleton.1 hb
    have hr : (c.readBlock height s).1 = .ok b := congrArg Prod.fst answer
    rw [height_of_readBlock hn named hr, readBlock_of_isSteady hn named u s, hr]
  | _ => exact absurd hb List.not_mem_nil

/-- What has been kept is what went into the cache, and all of it is of the expected chain. -/
structure Kept (c : Client σ) (capacity : Nat) (past : List Block) (s : Session σ) : Prop where
  cache : s.cache = past.foldl BlockCache.set (.empty capacity)
  expected : ∀ b ∈ past, c.Expects b
  answered : c.node.IsSteady → ∀ b ∈ past, ∀ u, (c.readBlock b.height u).1 = .ok b

theorem kept_start (c : Client σ) (capacity : Nat) (node : σ) (rest : Node.RestState) :
    Kept c capacity [] ⟨node, .empty capacity, rest, []⟩ :=
  ⟨rfl, fun _ hb => absurd hb List.not_mem_nil, fun _ _ hb => absurd hb List.not_mem_nil⟩

theorem kept_gets (h : Gets c height s kept r) (hi : Kept c capacity past s) :
    Kept c capacity (past ++ kept) r.2 := by
  refine ⟨?_, ?_, ?_⟩
  · rw [cache_of_gets h, hi.cache, List.foldl_append]
  · intro b hb
    rcases List.mem_append.1 hb with hb | hb
    · exact hi.expected b hb
    · exact expects_of_gets h hb
  · intro hn b hb
    rcases List.mem_append.1 hb with hb | hb
    · exact hi.answered hn b hb
    · exact readBlock_of_gets hn h hb

theorem kept_of_called (h : Called c capacity past s) : Kept c capacity past s := by
  induction h with
  | start node rest => exact kept_start c capacity node rest
  | call before height ih => exact kept_gets (gets_getBlock c height _) ih

theorem remembers_of_kept (hi : Kept c capacity past s) : s.cache.Remembers past := by
  rw [hi.cache]
  exact BlockCache.remembers_foldl past (BlockCache.remembers_empty capacity)

theorem mem_of_kept (hi : Kept c capacity past s) (h : s.cache.get? height = some b) :
    BlockCache.lastAt height past = some b ∧ b.height = height ∧ b ∈ past := by
  obtain ⟨hm, rfl⟩ := BlockCache.mem_of_get? h
  have hl := remembers_of_kept hi b hm
  exact ⟨hl, rfl, BlockCache.mem_of_lastAt hl⟩

/-- A block comes from the cache, where all are as expected, or from the node by way of a check. -/
theorem expects_of_gets_ok (hi : Kept c capacity past s) (h : Gets c height s kept r)
    (hb : r.1 = .ok b) : c.Expects b := by
  cases h with
  | cached named found =>
    cases hb
    exact hi.expected b (mem_of_kept hi found).2.2
  | kept named answer =>
    cases hb
    exact expects_of_readBlock (congrArg Prod.fst answer)
  | latest unnamed answer =>
    cases hb
    exact expects_of_readBlock (congrArg Prod.fst answer)
  | failed answer => cases hb

/-- What comes back for a height of a steady node is what the node answers at any time. -/
theorem fst_of_gets (hi : Kept c capacity past s) (hn : c.node.IsSteady) (hh : 0 < height)
    (h : Gets c height s kept r) (u : Session σ) : r.1 = (c.readBlock height u).1 := by
  cases h with
  | cached named found =>
    obtain ⟨_, rfl, hm⟩ := mem_of_kept hi found
    exact (hi.answered hn _ hm u).symm
  | kept named answer => rw [readBlock_of_isSteady hn hh u s, answer]
  | latest unnamed answer => exact absurd hh (by omega)
  | failed answer => rw [readBlock_of_isSteady hn hh u s, answer]

/-- A call for the latest block does not look at the cache. -/
theorem carries_getBlock_zero (c : Client σ) : Carries (c.getBlock 0) := by
  intro s cache
  unfold getBlock cached? keep
  simp only [Nat.lt_irrefl, if_false]
  rw [carries_readBlock]
  rcases c.readBlock 0 s with ⟨e | b, u⟩
  · rfl
  · rfl

/-- Whatever the node answers, however many blocks are kept and whatever has been called for: a
block that comes back is of the expected chain; a call that fails leaves the cache as it was; a
block that is in the cache comes from there without a question to the node, and it is the last one
that was kept at its height; and a call for the latest block neither looks at the cache nor changes
it. Of a steady node every block above height 0 is the one that the node itself answers with, and
the same as with any other capacity. -/
theorem getBlock_through_cache (c : Client σ) (capacity : Nat) {past : List Block} {s : Session σ}
    (called : Called c capacity past s) :
    s.cache = past.foldl BlockCache.set (.empty capacity) ∧
      (∀ height b, (c.getBlock height s).1 = .ok b → c.chainId = "" ∨ b.chainId = c.chainId) ∧
      (∀ height e, (c.getBlock height s).1 = .error e →
        (c.getBlock height s).2.cache = s.cache) ∧
      (∀ height b, 0 < height → s.cache.get? height = some b →
        c.getBlock height s = (.ok b, s) ∧ BlockCache.lastAt height past = some b ∧
          b.height = height) ∧
      (∀ cache, c.getBlock 0 { s with cache := cache } =
        ((c.getBlock 0 s).1, { (c.getBlock 0 s).2 with cache := cache })) ∧
      (c.node.IsSteady → ∀ height, 0 < height →
        (∀ u, (c.getBlock height s).1 = (c.readBlock height u).1) ∧
          ∀ room past' u, Called c room past' u →
            (c.getBlock height s).1 = (c.getBlock height u).1) := by
  have hi := kept_of_called called
  have hg := fun height => gets_getBlock c height s
  refine ⟨hi.cache, ?_, ?_, ?_, carries_getBlock_zero c s, ?_⟩
  · intro height b hb
    exact expects_of_gets_ok hi (hg height) hb
  · intro height e he
    exact cache_of_gets_error (hg height) he
  · intro height b hh hb
    obtain ⟨hl, he, _⟩ := mem_of_kept hi hb
    refine ⟨?_, hl, he⟩
    unfold getBlock cached?
    rw [if_pos hh, hb]
  · intro hn height hh
    have hr := fst_of_gets hi hn hh (hg height)
    refine ⟨hr, ?_⟩
    intro room past' u hu
    exact (hr u).trans (fst_of_gets (kept_of_called hu) hn hh (gets_getBlock c height u) u).symm

/-- A node that has a block at every height. -/
def counting : Node Unit where
  block height _ :=
    (⟨0, .ok ⟨none, some ⟨some ⟨"chain-1", height, some (0, 0)⟩, none⟩, none⟩⟩, ())
  transactions _ _ _ := (Node.Script.exhausted, ())
  rewards _ _ := (Node.Script.exhausted, ())
  delegations _ _ _ := (Node.Script.exhausted, ())
  unbonding _ _ _ := (Node.Script.exhausted, ())

theorem isSteady_counting : counting.IsSteady := by
  refine ⟨fun _ _ _ _ => rfl, ?_⟩
  intro height x reply b _ hr hb
  cases hr
  obtain ⟨body, header, hbody, hheader, hh⟩ := Node.height_of_block hb
  cases hbody
  cases hheader
  exact Int.ofNat.inj hh

/-- The client of such a node. -/
def watchful : Client Unit :=
  ⟨counting, "chain-1", 10, 10, ⟨"http", "", "", none, none, .segments [], none, none⟩, ""⟩

/-- With room for one block the second takes the place of the first, which is then read again. -/
theorem getBlock_through_cache_watchful :
    ∃ past s, Called watchful 1 past s ∧ watchful.node.IsSteady ∧
      past.map Block.height = [1, 2] ∧ s.cache.heights = [2] ∧
      (∃ b, s.cache.get? 2 = some b ∧ watchful.getBlock 2 s = (.ok b, s) ∧
        b.chainId = "chain-1" ∧ BlockCache.lastAt 2 past = some b) ∧
      (watchful.getBlock 1 s).1 = (watchful.readBlock 1 s).1 ∧
      (∃ e, (watchful.getBlock (Text.maxSigned64 + 1) s).1 = .error e ∧
        (watchful.getBlock (Text.maxSigned64 + 1) s).2.cache = s.cache) := by
  have hc : Called watchful 1 _ _ := .call (.call (.start () ⟨none, []⟩) 1) 2
  obtain ⟨_, hx, hf, hk, _, hn⟩ := getBlock_through_cache watchful 1 hc
  obtain ⟨hb, hl, _⟩ := hk 2 _ (by decide) rfl
  refine ⟨_, _, hc, isSteady_counting, rfl, rfl, ⟨_, rfl, hb, rfl, hl⟩, ?_, ⟨_, rfl, ?_⟩⟩
  · exact (hn isSteady_counting 1 (by decide)).1 _
  · exact hf _ _ rfl

end Client

end ChainIndexer
