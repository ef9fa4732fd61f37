import ChainIndexer.Proofs.Tasks.Prompt

/-
  Following a chain.

  A consumer polls: it asks for the latest data, each time from the height of the last block that it
  has received so far, and receives whatever one of the runs of the stream lets through. What it is
  told begins the heights of the range that was fetched (`told_of_reachable`, `begins_latestData`),
  and this range begins behind the last height that was known, at its successor if the chain has not
  run ahead by more than a poll may fetch (`heights_upTo`). So the heights ascend over all polls,
  and none is left out as long as the consumer keeps up (`heights_of_following`).
-/

namespace ChainIndexer

/-- Whoever asks for the block at a height is told of a block at that height. -/
def Chain.IsIndexed (c : Chain) : Prop :=
  ∀ height b, 0 < height → c.block height = .ok b → b.height = height

theorem LocalChain.isIndexed_chain (c : LocalChain) : c.chain.IsIndexed := by
  intro height b hp hb
  change c.block height = .ok b at hb
  unfold LocalChain.block at hb
  split at hb
  · cases hb
  · cases hb
    exact if_neg (Nat.ne_of_gt hp)

namespace Tasks

open Json

/-! ## Heights of blocks -/

/-- The height in the stored form of a block. -/
def heightField? : Json → Option Nat
  | .object fields => match fields.lookup "height" with
    | some (.number (.whole z)) => some z.toNat
    | _ => none
  | _ => none

/-- The height that a response of a type tells of, if it is about a block. -/
def blockHeight? (kind : String) (payload : Json) : Option Nat :=
  if kind = ResponseType.block.name then heightField? payload else none

/-- The heights of the blocks among some responses. -/
def told (rs : List TaskResponse) : List Nat :=
  rs.filterMap fun r => blockHeight? r.kind r.payload

/-- The heights of the blocks among what a handler produces. -/
def tells (data : List Body) : List Nat :=
  data.filterMap fun b => blockHeight? b.kind.name b.payload

theorem told_append (rs rs' : List TaskResponse) : told (rs ++ rs') = told rs ++ told rs' :=
  List.filterMap_append

theorem tells_append (data data' : List Body) : tells (data ++ data') = tells data ++ tells data' :=
  List.filterMap_append

theorem settled_block (b : Block) : settled b.toJson =
    .object [("chain_id", .text b.chainId), ("hash", .text b.hash), ("height", .nat b.height),
      ("num_txs", .nat b.txCount), ("time", .text b.time.text)] := by
  have hs : settle nestingLimit b.toJson = some (.object (settleFields
      [("hash", .text b.hash), ("height", .nat b.height), ("time", .text b.time.text),
        ("chain_id", .text b.chainId), ("num_txs", .nat b.txCount)])) := by
    simp [nestingLimit, Block.toJson, field, Instant.toJson, settle, settleEntries, Json.nat]
  unfold settled
  rw [hs]
  simp only [settleFields, List.foldl_cons, List.foldl_nil, putEntry, String.reduceLT, if_true,
    if_false, Option.getD_some]

theorem heightField?_settled (b : Block) : heightField? (settled b.toJson) = some b.height := by
  rw [settled_block]
  rfl

theorem blockHeight?_of_ne {kind : String} (h : kind ≠ ResponseType.block.name) (payload : Json) :
    blockHeight? kind payload = none :=
  if_neg h

/-- Of a height, only its block tells. -/
theorem tells_heightBodies (d : HeightData) : tells (heightBodies d) = [d.block.height] := by
  have ht : tells (d.transactions.map fun t => ⟨.transaction, settled t.toJson⟩) = [] := by
    unfold tells
    rw [List.filterMap_map, List.filterMap_eq_nil_iff]
    intro t _
    exact blockHeight?_of_ne (show ResponseType.transaction.name ≠ _ by decide) _
  have hb : blockHeight? ResponseType.block.name (settled d.block.toJson) = some d.block.height :=
    (if_pos rfl).trans (heightField?_settled d.block)
  unfold heightBodies
  rw [← List.singleton_append, tells_append, ht, List.append_nil]
  exact List.filterMap_cons_some hb

/-! ## What a consumer is told -/

namespace Stream

variable {s t : Stream} {a : Action} {heights : List Nat}

/-- What the stream has told, and what it would still tell if the handler went on, begins
`heights`. -/
def Tells (heights : List Nat) (s : Stream) : Prop :=
  told s.sent ++ tells s.rest <+: heights

theorem tells_congr (hs : t.sent = s.sent) (hr : t.rest = s.rest) (hi : Tells heights s) :
    Tells heights t := by
  unfold Tells at hi ⊢
  rw [hs, hr]
  exact hi

/-- A response that is not about a block tells nothing. -/
theorem tells_propose {r : TaskResponse} (free : t.waiting = none) (hs : t.sent = s.sent)
    (hr : t.rest = s.rest) (hk : r.kind ≠ ResponseType.block.name) (hi : Tells heights s) :
    Tells heights (t.propose r) := by
  have hn : told [r] = [] := List.filterMap_cons_none (blockHeight?_of_ne hk _)
  unfold Tells at hi ⊢
  rw [sent_propose free, told_append, hn, List.append_nil, hs]
  change told s.sent ++ tells t.rest <+: heights
  rw [hr]
  exact hi

/-- Every action keeps it. The timer only takes away from the end. -/
theorem tells_step (h : s.step a = some t) (hi : Tells heights s) : Tells heights t := by
  cases moves_of_step h with
  | @data b rest free working more =>
    unfold Tells at hi ⊢
    rw [more, ← List.singleton_append, tells_append] at hi
    rw [sent_propose (s := { s with rest := rest }) free, told_append, List.append_assoc]
    exact hi
  | fail free failing =>
    have hk : ResponseType.error.name ≠ ResponseType.block.name := by decide
    exact tells_propose (s := s) free rfl rfl hk hi
  | finish free ending =>
    have hk : endKind ≠ ResponseType.block.name := by decide
    exact tells_propose (s := s) free rfl rfl hk hi
  | push waiting room => exact tells_congr (sent_push waiting) rfl hi
  | conclude free working done => exact hi
  | expire working =>
    unfold Tells sent at hi
    rw [told_append, List.append_assoc] at hi
    have hp := (List.prefix_append _ _).trans hi
    change told (s.received ++ s.channel ++ []) ++ [] <+: heights
    rw [List.append_nil, List.append_nil]
    exact hp
  | receive channel => exact tells_congr (sent_receive channel) rfl hi

theorem tells_of_reachable {s₀ : Stream} (h : Reachable s₀ s) (hi : Tells heights s₀) :
    Tells heights s := by
  induction h with
  | start => exact hi
  | step before now ih => exact tells_step now ih

/-- What a consumer is told begins what the handler tells. -/
theorem told_of_reachable {id : String} {c : Course} (h : Reachable (start id c) s) :
    told s.received <+: tells c.data := by
  have hi : Tells (tells c.data) s := tells_of_reachable h List.prefix_rfl
  unfold Tells sent at hi
  rw [List.append_assoc, told_append, List.append_assoc] at hi
  exact (List.prefix_append _ _).trans hi

end Stream

/-! ## What a handler tells -/

variable {d : Dispatcher} {q : TaskRequest} {heights : List Nat}

theorem tells_of_reads (hx : d.chain.IsIndexed) {ds : List HeightData}
    (h : List.Forall₂ (d.chain.Reads d.pool) heights ds) (hz : 0 ∉ heights) :
    tells (ds.flatMap heightBodies) = heights := by
  induction h with
  | nil => rfl
  | @cons height data heights ds reads _ ih =>
    rw [List.mem_cons, not_or] at hz
    have hh : data.block.height = height := hx _ _ (Nat.pos_of_ne_zero (Ne.symm hz.1)) reads.block
    rw [List.flatMap_cons, tells_append, tells_heightBodies, hh, ih hz.2, List.singleton_append]

theorem begins_of_streams {c : Course} (hx : d.chain.IsIndexed) (h : Streams d heights c)
    (hz : 0 ∉ heights) : tells c.data <+: heights := by
  cases h with
  | whole reads =>
    exact ⟨[], (List.append_nil _).trans (tells_of_reads hx reads hz)⟩
  | broken split reads fails =>
    have hn := fun hm => hz (split ▸ List.mem_append_left _ hm)
    rw [tells_of_reads hx reads hn, split]
    exact List.prefix_append _ _

/-- The height from which on a request for the latest data asks, with 0 for any. -/
def askedFrom (lastHeight : Nat) : Nat :=
  if 0 < lastHeight then lastHeight + 1 else 0

/-- A request for the latest data is answered with the blocks that follow, up to one that fails. -/
theorem begins_latestData (hx : d.chain.IsIndexed) {last : LatestDataRequest}
    (hk : q.kind = TaskType.latestData.name) (hq : payload q LatestDataRequest.ofJson = .ok last) :
    tells ((d.plan q .latestData).course d).data = [] ∨
      ∃ latest, d.chain.block 0 = .ok latest ∧
        tells ((d.plan q .latestData).course d).data <+:
          (HeightRange.upTo (askedFrom last.lastHeight) d.maximumHeights
            (latest.height + 1)).heights := by
  by_cases hf : Fits d q
  · have ha := answers_course hk.symm hf
    simp only [Answers, AfterPayload, hq, LatestData] at ha
    cases hb : d.chain.block 0 with
    | error e =>
      simp only [hb] at ha
      rw [ha]
      exact .inl rfl
    | ok latest =>
      simp only [hb] at ha
      refine .inr ⟨latest, rfl, begins_of_streams hx ha ?_⟩
      rw [← onChain_upTo]
      exact Range.Pipeline.zero_notMem_heights _
  · rw [(plan_of_not_fits hf).2]
    exact .inl rfl

/-- The range of a poll begins behind the last known height; right behind it, if the chain has not
run ahead too far. -/
theorem heights_upTo (last maximum latest : Nat) :
    ∃ first count,
      (HeightRange.upTo (askedFrom last) maximum (latest + 1)).heights = List.range' first count ∧
        last < first ∧ (0 < last → latest - last ≤ maximum → first = last + 1) := by
  refine ⟨_, _, rfl, ?_, ?_⟩
  · unfold HeightRange.upTo askedFrom
    dsimp only
    split <;> split <;> omega
  · intro hp hl
    unfold HeightRange.upTo askedFrom
    dsimp only
    rw [if_pos hp, if_neg (by omega)]
    omega

/-! ## Polls -/

/-- A task for the latest data, who answers it, and what its consumer receives. -/
structure Poll where
  dispatcher : Dispatcher
  request : TaskRequest
  received : List TaskResponse

/-- The latest block is not further ahead of a height than a poll may fetch. -/
def Poll.Reaches (p : Poll) (last : Nat) : Prop :=
  ∀ latest, p.dispatcher.chain.block 0 = .ok latest →
    latest.height - last ≤ p.dispatcher.maximumHeights

/-- A poll that asks for what follows a height, with 0 for none. Its consumer may be of any speed
and may stop listening, and the timer may strike anywhere. -/
structure Poll.Follows (p : Poll) (last : Nat) : Prop where
  indexed : p.dispatcher.chain.IsIndexed
  kind : p.request.kind = TaskType.latestData.name
  asks : ∃ hash, payload p.request LatestDataRequest.ofJson = .ok ⟨last, hash⟩
  hears : ∃ s, Stream.Reachable (p.dispatcher.stream p.request) s ∧ s.received = p.received

/-- The heights of the blocks that were received in some polls. -/
def followed (polls : List Poll) : List Nat :=
  polls.flatMap fun p => told p.received

/-- The height of the last block that was received, with 0 for none. -/
def lastFollowed (polls : List Poll) : Nat :=
  (followed polls).getLast?.getD 0

/-- Polls one after another, each of which asks for what follows the last block received before it.
What the chain answers may change from poll to poll. -/
inductive Following : List Poll → Prop
  | start : Following []
  | poll {polls : List Poll} {p : Poll} (before : Following polls)
      (next : p.Follows (lastFollowed polls)) : Following (polls ++ [p])

variable {polls : List Poll} {p : Poll} {last : Nat}

theorem followed_snoc (polls : List Poll) (p : Poll) :
    followed (polls ++ [p]) = followed polls ++ told p.received := by
  unfold followed
  rw [List.flatMap_append, List.flatMap_singleton]

theorem stream_of_latestData (d : Dispatcher) (hk : q.kind = TaskType.latestData.name) :
    d.stream q = .start q.id ((d.plan q .latestData).course d) := by
  unfold Dispatcher.stream
  rw [hk, ofName_name]

theorem eq_range'_of_prefix {hs : List Nat} {first count : Nat}
    (h : hs <+: List.range' first count) : hs = List.range' first hs.length := by
  have hl := h.length_le
  rw [List.length_range'] at hl
  have hlen : hs.length = (List.range' first hs.length).length := List.length_range'.symm
  have hc : count = hs.length + (count - hs.length) := by omega
  rw [hc, ← List.range'_append_1] at h
  have hp := List.prefix_of_prefix_length_le h (List.prefix_append _ _) (Nat.le_of_eq hlen)
  exact hp.eq_of_length hlen

/-- A poll tells of heights without a gap, all of them behind the last known one, and right behind
it if the poll reaches the latest block. -/
theorem told_of_follows (h : p.Follows last) :
    ∃ first, told p.received = List.range' first (told p.received).length ∧ last < first ∧
      (0 < last → p.Reaches last → first = last + 1) := by
  obtain ⟨hash, hq⟩ := h.asks
  obtain ⟨s, hs, hr⟩ := h.hears
  rw [stream_of_latestData _ h.kind] at hs
  have ht := Stream.told_of_reachable hs
  rw [hr] at ht
  rcases begins_latestData h.indexed h.kind hq with hn | ⟨latest, hb, hc⟩
  · rw [hn] at ht
    rw [List.prefix_nil.1 ht]
    exact ⟨last + 1, rfl, Nat.lt_succ_self last, fun _ _ => rfl⟩
  · obtain ⟨first, count, hu, hl, hf⟩ :=
      heights_upTo last p.dispatcher.maximumHeights latest.height
    rw [hu] at hc
    exact ⟨first, eq_range'_of_prefix (ht.trans hc), hl, fun hp hm => hf hp (hm latest hb)⟩

/-! ## Runs of polls -/

theorem le_getLast_of_ascending {hs : List Nat} (ha : hs.Pairwise (· < ·)) {h : Nat}
    (hm : h ∈ hs) : h ≤ hs.getLast?.getD 0 := by
  rcases List.eq_nil_or_concat' hs with rfl | ⟨before, last, rfl⟩
  · cases hm
  · rw [List.getLast?_concat, Option.getD_some]
    rcases List.mem_append.1 hm with hb | hl
    · exact Nat.le_of_lt ((List.pairwise_append.1 ha).2.2 h hb last (List.mem_singleton_self last))
    · exact Nat.le_of_eq (List.mem_singleton.1 hl)

theorem ascending_of_following (h : Following polls) : (followed polls).Pairwise (· < ·) := by
  induction h with
  | start => exact .nil
  | @poll polls p before next ih =>
    obtain ⟨first, ht, hl, _⟩ := told_of_follows next
    rw [followed_snoc, List.pairwise_append, ht]
    refine ⟨ih, List.pairwise_lt_range' 1, ?_⟩
    intro a ha b hb
    have hle := le_getLast_of_ascending ih ha
    have hge := (List.mem_range'_1.1 hb).1
    exact Nat.lt_of_le_of_lt hle (Nat.lt_of_lt_of_le hl hge)

/-- Heights without a gap, from 1 on or later. -/
def Contiguous (hs : List Nat) : Prop :=
  ∃ first, 0 < first ∧ hs = List.range' first hs.length

theorem contiguous_append {hs : List Nat} {first count : Nat} (hc : Contiguous hs)
    (hl : hs.getLast?.getD 0 < first)
    (hf : hs ≠ [] → 0 < hs.getLast?.getD 0 → first = hs.getLast?.getD 0 + 1) :
    Contiguous (hs ++ List.range' first count) := by
  obtain ⟨start, hp, hs'⟩ := hc
  cases hn : hs.length with
  | zero =>
    rw [List.length_eq_zero_iff.1 hn, List.nil_append]
    exact ⟨first, Nat.zero_lt_of_lt hl, by rw [List.length_range']⟩
  | succ n =>
    have hlast : hs.getLast?.getD 0 = start + n := by
      rw [hs', hn, List.getLast?_range', if_neg (Nat.succ_ne_zero n), Option.getD_some]
      rfl
    have hfirst := hf (List.ne_nil_of_length_eq_add_one hn) (by omega)
    have hst : first = start + (n + 1) := by omega
    refine ⟨start, hp, ?_⟩
    rw [hs', hn, hst, List.range'_append_1, List.length_range']

/-- Over a whole run of polls the heights of the blocks received ascend, and none is left out if the
chain is at no poll after the first block further ahead than a poll may fetch. -/
theorem heights_of_following (h : Following polls) :
    (followed polls).Pairwise (· < ·) ∧
      ((∀ before p after, polls = before ++ p :: after → followed before ≠ [] →
          p.Reaches (lastFollowed before)) → Contiguous (followed polls)) := by
  refine ⟨ascending_of_following h, ?_⟩
  induction h with
  | start => exact fun _ => ⟨1, Nat.one_pos, rfl⟩
  | @poll polls p before next ih =>
    intro hr
    obtain ⟨first, ht, hl, hf⟩ := told_of_follows next
    have hc : Contiguous (followed polls) := by
      apply ih
      intro before p' after hs
      refine hr before p' (after ++ [p]) ?_
      rw [hs, List.append_assoc, List.cons_append]
    rw [followed_snoc, ht]
    exact contiguous_append hc hl fun hn hp => hf hp (hr polls p [] rfl hn)

/-- The poll of a prompt consumer that listens to the end. -/
def Poll.prompt (d : Dispatcher) (q : TaskRequest) : Poll :=
  ⟨d, q, (d.dispatch q).1⟩

theorem follows_prompt {hash : String} (hx : d.chain.IsIndexed)
    (hk : q.kind = TaskType.latestData.name)
    (hq : payload q LatestDataRequest.ofJson = .ok ⟨last, hash⟩) :
    (Poll.prompt d q).Follows last := by
  obtain ⟨s, hs, _, hr⟩ := reachable_dispatch d q
  exact ⟨hx, hk, ⟨hash, hq⟩, s, hs, hr⟩

/-- A request for what follows a height. -/
def latestAfter (last : Nat) : TaskRequest :=
  ⟨"task-1", "GetLatestData", LatestDataRequest.toJson ⟨last, ""⟩⟩

/-- A chain of four heights of which the third fails. -/
def thirdFails : Dispatcher :=
  ⟨LocalChain.chain ⟨4, [3], [], [], []⟩, "", 5, 100, 1000⟩

/-- The chain when it has grown by another two heights. -/
def sixHeights : Dispatcher :=
  ⟨LocalChain.chain ⟨6, [], [], [], []⟩, "", 5, 100, 1000⟩

/-- A poll that meets a failure, and one that goes on from there. -/
def twoPolls : List Poll :=
  [.prompt thirdFails (latestAfter 0), .prompt sixHeights (latestAfter 2)]

theorem heights_of_following_twoPolls : followed twoPolls = [1, 2, 3, 4, 5, 6] ∧
    Following twoPolls ∧ (followed twoPolls).Pairwise (· < ·) ∧ Contiguous (followed twoPolls) := by
  have hlast : lastFollowed [.prompt thirdFails (latestAfter 0)] = 2 := by decide +kernel
  have hfirst : (Poll.prompt thirdFails (latestAfter 0)).Follows 0 :=
    follows_prompt (LocalChain.isIndexed_chain _) rfl rfl
  have hsecond : (Poll.prompt sixHeights (latestAfter 2)).Follows 2 :=
    follows_prompt (LocalChain.isIndexed_chain _) rfl rfl
  have hrun : Following twoPolls := by
    refine .poll (.poll .start hfirst) ?_
    rw [List.nil_append, hlast]
    exact hsecond
  obtain ⟨ha, hc⟩ := heights_of_following hrun
  refine ⟨by decide +kernel, hrun, ha, hc ?_⟩
  -- Neither poll is asked to fetch more than six heights.
  intro before p after hs _ latest hb
  have hp : p ∈ twoPolls := by
    rw [hs]
    exact List.mem_append_right before List.mem_cons_self
  rcases List.mem_pair.1 hp with rfl | rfl
  · cases hb
    exact Nat.le_trans (Nat.sub_le _ _) (by decide)
  · cases hb
    exact Nat.le_trans (Nat.sub_le _ _) (by decide)

end Tasks

end ChainIndexer
