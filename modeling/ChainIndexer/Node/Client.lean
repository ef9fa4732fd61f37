import ChainIndexer.BlockCache
import ChainIndexer.Chain.Basic
import ChainIndexer.Node.Basic
import ChainIndexer.Node.Rest

/-
  The client of a node.

  Every question has a limit of time, and is put again when another attempt may succeed. Blocks are
  kept in a cache; a block of another chain than the expected one is refused. Transactions and
  holdings come page by page. A node need not stop sending pages, so that whoever asks for them says
  how many pages to ask for at most.
-/

namespace ChainIndexer

open Text

/-- A client: its node, and what it expects of it. Limits are in seconds. -/
structure Client (σ : Type) where
  node : Node σ
  chainId : String
  blockLimit : Nat
  searchLimit : Nat
  host : Url
  apiKey : String

namespace Client

open Node (Asked Question Reply Refusal)

/-- What changes while a client is at work. -/
structure Session (σ : Type) where
  node : σ
  cache : BlockCache
  rest : Node.RestState
  asked : List Asked

/-- A call to a node. -/
abbrev Call (σ α : Type) := Session σ → Except Error α × Session σ

/-! ## Questions -/

/-- Puts a question once. An answer that takes longer than `limit` seconds is lost. -/
def ask (limit : Nat) (asked : Asked) (question : σ → Reply α × σ) : Call σ α := fun s =>
  let (reply, node) := question s.node
  let s := { s with node := node, asked := s.asked ++ [asked] }
  if limit * 1000 < reply.delay then (.error .elapsed, s)
  else (reply.answer.mapError Refusal.toError, s)

/-- Puts a question until the answer is final. -/
def read (limit : Nat) (asked : Asked) (question : σ → Reply α × σ) : Call σ α := fun s =>
  let a := Attempts.run (ask limit asked question) s
  (a.result, a.state)

/-! ## Blocks -/

/-- A block of the expected chain; without an expected chain, any block. -/
def checkChain (c : Client σ) (b : Block) : Except Error Block :=
  if c.chainId = "" ∨ b.chainId = c.chainId then .ok b
  else .error (.configuration ("block " ++ b.height.repr ++ " belongs to chain " ++ b.chainId
    ++ ", expected " ++ c.chainId))

/-- The question for a block; height 0 asks for the latest one. -/
def blockQuestion (height : Nat) : Question :=
  if height = 0 then .latestBlock else .blockAt height

/-- The block that the node has at a height. -/
def readBlock (c : Client σ) (height : Nat) : Call σ Block := fun s =>
  match narrow maxSigned64 height with
  | .error cause => (.error (.narrowing cause), s)
  | .ok _ =>
    let (r, s) := read c.blockLimit (.plain (blockQuestion height)) (c.node.block height) s
    (r.bind fun reply => reply.block.bind c.checkChain, s)

/-- The block at a height that is in the cache. The latest block never is. -/
def cached? (s : Session σ) (height : Nat) : Option Block :=
  if 0 < height then s.cache.get? height else none

/-- Keeps a block that was asked for by its height. -/
def keep (height : Nat) (b : Block) (s : Session σ) : Session σ :=
  if 0 < height then { s with cache := s.cache.set b } else s

/-- The block at a height, from the cache or else from the node. -/
def getBlock (c : Client σ) (height : Nat) : Call σ Block := fun s =>
  match cached? s height with
  | some b => (.ok b, s)
  | none =>
    match c.readBlock height s with
    | (.ok b, s) => (.ok b, keep height b s)
    | (.error e, s) => (.error e, s)

/-! ## Pages -/

/-- Asks for page after page, and puts their items together. `none` if the last of `limit` pages was
not the last one. -/
def gather (page : κ → Call σ (List α × Option κ)) :
    Nat → κ → Session σ → Option (Except Error (List α)) × Session σ
  | 0, _, s => (none, s)
  | limit + 1, key, s =>
    match page key s with
    | (.error e, s) => (some (.error e), s)
    | (.ok (items, none), s) => (some (.ok items), s)
    | (.ok (items, some key), s) =>
      let (more, s) := gather page limit key s
      (more.map fun r => r.map (items ++ ·), s)

/-- Where a search goes on after a page: nowhere behind an empty page, or when all transactions that
the page promises have come. -/
def searchNext (page before : Nat) (p : Node.TxPage) : Option (Nat × Nat) :=
  let found := before + p.receipts.length
  if p.receipts = [] ∨ p.count ≤ found then none else some (page + 1, found)

/-- A page of the transactions at a height; `before` came on earlier pages. -/
def searchPage (c : Client σ) (height : Nat) :
    Nat × Nat → Call σ (List (Envelope × Receipt) × Option (Nat × Nat)) := fun (page, before) s =>
  let (r, s) := read c.searchLimit (.plain (.transactions height page))
    (c.node.transactions height page) s
  (r.bind fun p => p.transactions.map fun found => (found, searchNext page before p), s)

/-- The transactions of a block, on at most `limit` pages. -/
def search (c : Client σ) (limit : Nat) (b : Block) (s : Session σ) :
    Option (Except Error (List (Envelope × Receipt))) × Session σ :=
  gather (c.searchPage b.height) limit (1, 0) s

/-- The data of a height, with its transactions on at most `limit` pages. -/
def fetchHeight (c : Client σ) (limit : Nat) (pool : String) (height : Nat) (s : Session σ) :
    Option (Except Error HeightData) × Session σ :=
  match c.getBlock height s with
  | (.error e, s) => (some (.error e), s)
  | (.ok b, s) =>
    if b.txCount = 0 then (some (.ok ⟨b, []⟩), s)
    else
      let (found, s) := c.search limit b s
      (found.map fun r => r.bind fun found => (HeightData.decode pool b found .zero).1, s)

/-! ## Holdings -/

/-- The rewards of an account. -/
def getRewards (c : Client σ) (q : AccountQuery) : Call σ Rewards := fun s =>
  let (r, s) := read c.searchLimit (.at (.rewards q.account) q.height) (c.node.rewards q) s
  (r.bind (Node.rewardsOf q.height), s)

/-- The balances of an account. -/
def getBalances (c : Client σ) (q : AccountQuery) : Call σ Balances := fun s =>
  let (r, rest) := Node.restBalances c.host c.apiKey q s.rest
  (r, { s with rest := rest })

/-- A page of the delegations of an account. -/
def delegationPage (c : Client σ) (q : AccountQuery) (key : Bytes) :
    Call σ (List Delegation × Option Bytes) := fun s =>
  let (r, s) := read c.searchLimit (.at (.delegations q.account key) q.height)
    (c.node.delegations q key) s
  (r.bind fun p => p.delegations.map fun items => (items, Node.nextPage? p.mark), s)

/-- A page of what an account has on its way back. -/
def unbondingPage (c : Client σ) (q : AccountQuery) (key : Bytes) :
    Call σ (List Unbonding × Option Bytes) := fun s =>
  let (r, s) := read c.searchLimit (.at (.unbonding q.account key) q.height)
    (c.node.unbonding q key) s
  (r.bind fun p => p.unbonding.map fun items => (items, Node.nextPage? p.mark), s)

/-- What an account has delegated, on at most `limit` pages of each kind. -/
def getDelegations (c : Client σ) (limit : Nat) (q : AccountQuery) (s : Session σ) :
    Option (Except Error Delegations) × Session σ :=
  match gather (c.delegationPage q) limit [] s with
  | (none, s) => (none, s)
  | (some (.error e), s) => (some (.error e), s)
  | (some (.ok delegated), s) =>
    let (unbonding, s) := gather (c.unbondingPage q) limit [] s
    (unbonding.map fun r => r.map fun unbonding => ⟨q.height, delegated, unbonding⟩, s)

/-! ## Chains -/

/-- What a client finds on a node, each question put from the same state on. -/
def chain (c : Client σ) (limit : Nat) (s : Session σ) : Chain where
  block height := (c.getBlock height s).1
  delay _ := 0
  transactions b := ((c.search limit b s).1).getD (.error .cancelled)
  rewards q := (c.getRewards q s).1
  balances q := (c.getBalances q s).1
  delegations q := ((c.getDelegations limit q s).1).getD (.error .cancelled)

end Client

end ChainIndexer
