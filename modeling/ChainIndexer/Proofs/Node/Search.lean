import ChainIndexer.Proofs.Node.Cache
import ChainIndexer.Proofs.Wire.RoundTrip

/-
  A search finds what the node has.

  A node may make its pages as large as it likes. It fills in as many envelopes of a page as it
  likes, says how many transactions there are in one place or in two, and may do so otherwise each
  time it is asked. A page that is a slice of the transactions pairs to that slice
  (`pair_of_supplied`), and the client goes on behind it exactly if the slice is not the last
  (`searchNext_of_pageOf`). So the pages that are asked for make up all transactions, and none is
  asked for in vain (`search_finds_all`).
-/

namespace ChainIndexer

open Text

namespace Node

/-! ## Pages of a list -/

variable {α : Type}

/-- The items of a list on a page; pages count from 1. -/
def slice (size : Nat) (items : List α) (page : Nat) : List α :=
  (items.drop ((page - 1) * size)).take size

/-- The number of pages on which items stand; without items there is an empty page. -/
def pageCount (size count : Nat) : Nat :=
  max 1 ((count + size - 1) / size)

theorem pageCount_of_le {size count : Nat} (hs : 0 < size) (h : count ≤ size) :
    pageCount size count = 1 := by
  unfold pageCount
  refine Nat.max_eq_left (Nat.lt_succ_iff.1 (Nat.div_lt_of_lt_mul ?_))
  omega

theorem pageCount_of_lt {size count : Nat} (hs : 0 < size) (h : size < count) :
    pageCount size count = pageCount size (count - size) + 1 := by
  have hd : (count + size - 1) / size = (count - size + size - 1) / size + 1 := by
    rw [← Nat.add_div_right _ hs]
    exact congrArg (· / size) (by omega)
  have hp : 1 ≤ (count - size + size - 1) / size := (Nat.le_div_iff_mul_le hs).2 (by omega)
  unfold pageCount
  rw [hd]
  omega

/-! ## Pages of transactions -/

/-- A receipt holds the bytes of an envelope, which is nested no deeper than a reader goes. -/
structure Embeds (r : Receipt) (e : Envelope) : Prop where
  bytes : ∃ packed, r.tx = some packed ∧ packed.value = e.bytes
  canonical : Wire.Canonical Wire.depthLimit .tx e.record
  length : e.bytes.length < 2 ^ 64

theorem embedded_of_embeds {r : Receipt} {e : Envelope} (h : Embeds r e) :
    TxPage.embedded r = .ok e := by
  obtain ⟨packed, hr, hv⟩ := h.bytes
  unfold TxPage.embedded
  rw [hr]
  simp only [hv]
  unfold Envelope.read Envelope.bytes
  rw [Wire.decode_encode h.canonical h.length]
  rfl

/-- The envelopes of some transactions are there as far as they go, and embedded from there on. -/
inductive Supplied : List Envelope → List (Envelope × Receipt) → Prop
  | none : Supplied [] []
  | given {e : Envelope} {r : Receipt} {es : List Envelope} {rest : List (Envelope × Receipt)}
      (more : Supplied es rest) : Supplied (e :: es) ((e, r) :: rest)
  | embedded {e : Envelope} {r : Receipt} {rest : List (Envelope × Receipt)}
      (held : Embeds r e) (more : Supplied [] rest) : Supplied [] ((e, r) :: rest)

/-- Each receipt is paired with its own envelope, wherever that is found. -/
theorem pair_of_supplied {es : List Envelope} {found : List (Envelope × Receipt)}
    (h : Supplied es found) : TxPage.pair es (found.map Prod.snd) = .ok found := by
  induction h with
  | none => rfl
  | given more ih =>
    rw [List.map_cons, TxPage.pair, ih]
    rfl
  | embedded held more ih =>
    rw [List.map_cons, TxPage.pair, embedded_of_embeds held, ih]
    rfl

theorem supplied_of_filled {es : List Envelope} {found : List (Envelope × Receipt)}
    (filled : es <+: found.map Prod.fst)
    (held : ∀ x ∈ found.drop es.length, Embeds x.2 x.1) : Supplied es found := by
  induction found generalizing es with
  | nil =>
    rw [List.map_nil, List.prefix_nil] at filled
    rw [filled]
    exact .none
  | cons x rest ih =>
    cases es with
    | nil =>
      obtain ⟨hx, hr⟩ := List.forall_mem_cons.1 held
      exact .embedded hx (ih (List.nil_prefix) hr)
    | cons e es =>
      obtain ⟨rfl, hes⟩ := List.cons_prefix_cons.1 filled
      exact .given (ih hes held)

/-- A page as a node makes it of all transactions: the receipts of a slice, as many of its envelopes
as the node fills in, and the number of all transactions in one of two places or in both. -/
structure PageOf (size : Nat) (all : List (Envelope × Receipt)) (page : Nat) (p : TxPage) :
    Prop where
  receipts : p.receipts = (slice size all page).map Prod.snd
  filled : p.envelopes <+: (slice size all page).map Prod.fst
  held : ∀ x ∈ (slice size all page).drop p.envelopes.length, Embeds x.2 x.1
  reported : p.total = all.length ∨ p.mark.map PageMark.total = some all.length
  bounded : p.total ≤ all.length ∧ ∀ m ∈ p.mark, m.total ≤ all.length

variable {size page : Nat} {all : List (Envelope × Receipt)} {p : TxPage}

theorem transactions_of_pageOf (h : PageOf size all page p) :
    p.transactions = .ok (slice size all page) := by
  unfold TxPage.transactions
  rw [h.receipts]
  exact pair_of_supplied (supplied_of_filled h.filled h.held)

theorem count_of_pageOf (h : PageOf size all page p) : p.count = all.length := by
  obtain ⟨hb, hm⟩ := h.bounded
  unfold TxPage.count
  cases hp : p.mark with
  | none =>
    rcases h.reported with ht | ht
    · exact (Nat.max_zero p.total).trans ht
    · rw [hp] at ht
      exact absurd ht nofun
  | some m =>
    have hle := hm m hp
    show max p.total m.total = all.length
    rcases h.reported with ht | ht
    · omega
    · rw [hp] at ht
      have hmt : m.total = all.length := Option.some.inj ht
      omega

/-- A node that answers in time with the pages of all transactions at a height. -/
def Serves (n : Node σ) (limit height size : Nat) (all : List (Envelope × Receipt)) : Prop :=
  ∀ page x, 1 ≤ page → ∃ p, (n.transactions height page x).1.answer = .ok p ∧
    (n.transactions height page x).1.delay ≤ limit * 1000 ∧ PageOf size all page p

end Node

namespace Client

open Node

variable {σ : Type} {c : Client σ} {size height : Nat} {all : List (Envelope × Receipt)}

/-! ## Asking for pages -/

/-- A question that is answered in time is put once. -/
theorem read_of_answer {α : Type} {limit : Nat} {asked : Asked} {question : σ → Reply α × σ}
    {s : Session σ} {a : α} (ha : (question s.node).1.answer = .ok a)
    (hd : (question s.node).1.delay ≤ limit * 1000) :
    read limit asked question s
      = (.ok a, { s with node := (question s.node).2, asked := s.asked ++ [asked] }) := by
  have hk : ask limit asked question s
      = (.ok a, { s with node := (question s.node).2, asked := s.asked ++ [asked] }) := by
    unfold ask
    dsimp only
    rw [if_neg (Nat.not_lt.2 hd), ha]
    rfl
  unfold read Attempts.run
  rw [show Attempts.maxCalls - 1 = 1 + 1 from rfl, Attempts.startingAt, hk]

/-- Behind `k` pages, the next one holds a slice of what is left. -/
theorem slice_succ (size : Nat) (all : List (Envelope × Receipt)) (k : Nat) :
    slice size all (k + 1) = (all.drop (k * size)).take size :=
  rfl

/-- The client goes on behind a page exactly if the page is not the last one. -/
theorem searchNext_of_pageOf {k : Nat} {p : TxPage} (hs : 0 < size) (hk : k * size ≤ all.length)
    (h : PageOf size all (k + 1) p) :
    searchNext (k + 1) (k * size) p =
      if all.length - k * size ≤ size then none else some (k + 2, (k + 1) * size) := by
  have hl : p.receipts.length = min size (all.length - k * size) := by
    rw [h.receipts, slice_succ, List.length_map, List.length_take, List.length_drop]
  unfold searchNext
  rw [count_of_pageOf h]
  dsimp only
  by_cases hle : all.length - k * size ≤ size
  · have hend : p.receipts = [] ∨ all.length ≤ k * size + p.receipts.length := .inr (by omega)
    rw [if_pos hle, if_pos hend]
  · have hf : k * size + p.receipts.length = (k + 1) * size := by
      rw [hl, Nat.add_mul, Nat.one_mul]
      omega
    have hlt : ¬(p.receipts = [] ∨ all.length ≤ (k + 1) * size) := by
      rintro (he | he)
      · rw [he, List.length_nil] at hl
        omega
      · rw [← hf] at he
        omega
    rw [if_neg hle, hf, if_neg hlt]

/-- What comes of a page of a node that serves it. -/
theorem searchPage_of_serves (hs : 0 < size)
    (serves : Serves c.node c.searchLimit height size all) {k : Nat} (hk : k * size ≤ all.length)
    (s : Session σ) :
    ∃ u, c.searchPage height (k + 1, k * size) s = (.ok (slice size all (k + 1),
        if all.length - k * size ≤ size then none else some (k + 2, (k + 1) * size)), u) ∧
      u.asked = s.asked ++ [.plain (.transactions height (k + 1))] := by
  obtain ⟨p, ha, hd, hp⟩ := serves (k + 1) s.node (by omega)
  unfold searchPage
  dsimp only
  rw [read_of_answer ha hd]
  simp only [Except.bind, transactions_of_pageOf hp, Except.map, searchNext_of_pageOf hs hk hp]
  exact ⟨_, rfl, rfl⟩

/-- Behind `k` pages the client finds what is left, and asks for each of the pages on which it
stands. -/
theorem gather_searchPage (hs : 0 < size) (serves : Serves c.node c.searchLimit height size all)
    {limit k : Nat} (hk : k * size ≤ all.length)
    (hl : pageCount size (all.length - k * size) ≤ limit) (s : Session σ) :
    ∃ u, gather (c.searchPage height) limit (k + 1, k * size) s
        = (some (.ok (all.drop (k * size))), u) ∧
      u.asked = s.asked ++ (List.range' (k + 1) (pageCount size (all.length - k * size))).map
        fun page => .plain (.transactions height page) := by
  induction limit generalizing k s with
  | zero =>
    have h1 : 1 ≤ pageCount size (all.length - k * size) := Nat.le_max_left 1 _
    omega
  | succ limit ih =>
    obtain ⟨v, hv, hask⟩ := searchPage_of_serves hs serves hk s
    unfold gather
    rw [hv]
    by_cases hle : all.length - k * size ≤ size
    · have ht : slice size all (k + 1) = all.drop (k * size) := by
        rw [slice_succ]
        exact List.take_of_length_le (by rw [List.length_drop]; exact hle)
      rw [if_pos hle, pageCount_of_le hs hle, ht]
      exact ⟨v, rfl, hask⟩
    · have hm : (k + 1) * size = k * size + size := by rw [Nat.add_mul, Nat.one_mul]
      have hc := pageCount_of_lt hs (Nat.not_le.1 hle)
      have hn : all.length - (k + 1) * size = all.length - k * size - size := by omega
      have ht : slice size all (k + 1) ++ all.drop ((k + 1) * size) = all.drop (k * size) := by
        rw [slice_succ, hm, ← List.drop_drop, List.take_append_drop]
      obtain ⟨u, hu, hq⟩ := ih (k := k + 1) (by omega) (by rw [hn]; omega) v
      rw [if_neg hle]
      dsimp only
      rw [hu, ← ht]
      refine ⟨u, rfl, ?_⟩
      rw [hq, hask, hc, hn, List.range'_succ, List.map_cons, List.append_assoc]
      rfl

/-- Of a node that makes its pages of some transactions at a height, the client finds exactly those,
in their order and each one once, and asks for each page once. It does so with any number of allowed
pages on which they can stand. -/
theorem search_finds_all (c : Client σ) {size : Nat} {all : List (Envelope × Receipt)} {b : Block}
    (hs : 0 < size) (serves : Serves c.node c.searchLimit b.height size all) {limit : Nat}
    (hl : pageCount size all.length ≤ limit) (s : Session σ) :
    (c.search limit b s).1 = some (.ok all) ∧
      (c.search limit b s).2.asked = s.asked ++ (List.range' 1 (pageCount size all.length)).map
        fun page => .plain (.transactions b.height page) := by
  have hl' : pageCount size (all.length - 0 * size) ≤ limit := by
    rw [Nat.zero_mul]
    exact hl
  have hg := gather_searchPage hs serves (k := 0) (by omega) hl' s
  simp only [Nat.zero_mul, Nat.sub_zero, Nat.zero_add, List.drop_zero] at hg
  obtain ⟨u, hu, hq⟩ := hg
  unfold search
  rw [hu]
  exact ⟨rfl, hq⟩

/-- A node that has some transactions at every height. It fills in the first envelope of a page and
says in the mark of a page how many transactions there are. -/
def paging (size : Nat) (all : List (Envelope × Receipt)) : Node Unit where
  block _ _ := (Script.exhausted, ())
  transactions _ page _ :=
    let found := slice size all page
    (⟨5, .ok ⟨(found.map Prod.fst).take 1, found.map Prod.snd, 0, some ⟨[], all.length⟩⟩⟩, ())
  rewards _ _ := (Script.exhausted, ())
  delegations _ _ _ := (Script.exhausted, ())
  unbonding _ _ _ := (Script.exhausted, ())

theorem serves_paging (size limit height : Nat) {all : List (Envelope × Receipt)}
    (held : ∀ x ∈ all, Embeds x.2 x.1) (hd : 1 ≤ limit) :
    (paging size all).Serves limit height size all := by
  intro page x hp
  refine ⟨_, rfl, ?_, rfl, List.take_prefix 1 _, ?_, .inr rfl, Nat.zero_le _, ?_⟩
  · show 5 ≤ limit * 1000
    omega
  · exact fun x hx => held x (List.mem_of_mem_drop (List.mem_of_mem_take (List.mem_of_mem_drop hx)))
  · intro m hm
    obtain rfl := Option.some.inj hm
    exact Nat.le_refl _

/-- The receipt of an envelope that it holds. -/
def receiptOf (hash : String) (e : Envelope) : Receipt :=
  ⟨7, hash, "", 0, "", "", 1, 1, [], [], some ⟨"/cosmos.tx.v1beta1.Tx", e.bytes⟩⟩

/-- A client of such a node, with pages of two. -/
def pager (all : List (Envelope × Receipt)) : Client Unit :=
  ⟨paging 2 all, "", 10, 10, ⟨"http", "", "", none, none, .segments [], none, none⟩, ""⟩

/-- Three transactions with a memo stand on two pages of two. -/
theorem search_finds_three : ∃ all : List (Envelope × Receipt), all.length = 3 ∧
    let found := (pager all).search 5 ⟨"h", 7, .epoch, "c", 3⟩ ⟨(), .empty 1, ⟨none, []⟩, []⟩
    found.1 = some (.ok all) ∧
      found.2.asked = [.plain (.transactions 7 1), .plain (.transactions 7 2)] := by
  obtain ⟨record, hr⟩ : ∃ record, Wire.decode .tx [10, 3, 18, 1, 109] = .ok record := by
    have hk : (Wire.decode .tx [10, 3, 18, 1, 109]).isOk = true := by decide +kernel
    cases h : Wire.decode .tx [10, 3, 18, 1, 109] with
    | ok record => exact ⟨record, rfl⟩
    | error fault =>
      rw [h] at hk
      exact absurd hk nofun
  have held : ∀ hash, Embeds (receiptOf hash ⟨record⟩) ⟨record⟩ := fun hash =>
    ⟨⟨_, rfl, rfl⟩, Wire.canonical_of_decode hr,
      Nat.lt_of_le_of_lt (Wire.length_of_decode hr) (by decide)⟩
  have hall : ∀ x ∈ ["a", "b", "c"].map fun hash =>
      ((⟨record⟩ : Envelope), receiptOf hash ⟨record⟩), Embeds x.2 x.1 := by
    intro x hx
    obtain ⟨hash, _, rfl⟩ := List.mem_map.1 hx
    exact held hash
  refine ⟨["a", "b", "c"].map fun hash => (⟨record⟩, receiptOf hash ⟨record⟩), rfl, ?_⟩
  obtain ⟨hf, ha⟩ := search_finds_all (pager _) (b := ⟨"h", 7, .epoch, "c", 3⟩) (by decide)
    (serves_paging 2 10 7 hall (by decide)) (show pageCount 2 3 ≤ 5 by decide)
    ⟨(), .empty 1, ⟨none, []⟩, []⟩
  exact ⟨hf, ha.trans (by simp [pageCount, List.range'])⟩

end Client

end ChainIndexer
