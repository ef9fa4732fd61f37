import ChainIndexer.Proofs.Node.Cache
import ChainIndexer.Proofs.Node.Pages

/-
  A search comes to an end.

  A node may promise another number of transactions on each page, keep none of its promises, and
  send pages that are short, overlong or those that it has sent before. As long as it never promises
  more than some number, a search stops: it goes on only behind a page that brought something, and
  only while less has come than the page promises. So the pages that are asked for are no more than
  what is promised at most (`exists_readPages`). What the search finds is what these pages hold, and
  it fails if one of them cannot be taken (`search_ends`).
-/

namespace ChainIndexer

open Outcome

/-! ## Promises -/

namespace Node

variable {σ : Type} {n : Node σ} {height bound : Nat} {x y : σ}

/-- The states that a node comes to while it is asked for the transactions at a height. -/
inductive Comes (n : Node σ) (height : Nat) (x : σ) : σ → Prop
  | start : Comes n height x x
  | ask {y : σ} (before : Comes n height x y) (page : Nat) :
      Comes n height x (n.transactions height page y).2

/-- No page that a node sends from now on promises more than `bound` transactions. -/
def PromisesAtMost (n : Node σ) (height bound : Nat) (x : σ) : Prop :=
  ∀ y, n.Comes height x y → ∀ page p,
    (n.transactions height page y).1.answer = .ok p → p.count ≤ bound

theorem comes_of_ask (page : Nat) (h : n.Comes height (n.transactions height page x).2 y) :
    n.Comes height x y := by
  induction h with
  | start => exact .ask .start page
  | ask before page' ih => exact .ask ih page'

theorem promisesAtMost_ask (page : Nat) (h : n.PromisesAtMost height bound x) :
    n.PromisesAtMost height bound (n.transactions height page x).2 :=
  fun y hy => h y (comes_of_ask page hy)

/-! ## Promises of scripted nodes -/

/-- What holds of all answers that are ready holds of the next one and of those after it. -/
theorem nextAt_of_forall {α : Type} {P : Reply α → Prop} (hx : P Script.exhausted) (height : Nat)
    {answers : List (Nat × List (Reply α))} (h : ∀ e ∈ answers, ∀ r ∈ e.2, P r) :
    P (Script.nextAt height answers).1 ∧
      ∀ e ∈ (Script.nextAt height answers).2, ∀ r ∈ e.2, P r := by
  induction answers with
  | nil => exact ⟨hx, h⟩
  | cons e rest ih =>
    obtain ⟨place, rs⟩ := e
    obtain ⟨hrs, hrest⟩ := List.forall_mem_cons.1 h
    unfold Script.nextAt
    split
    · cases rs with
      | nil => exact ⟨hx, List.forall_mem_cons.2 ⟨nofun, hrest⟩⟩
      | cons r rs =>
        obtain ⟨hr, hrs⟩ := List.forall_mem_cons.1 hrs
        exact ⟨hr, List.forall_mem_cons.2 ⟨hrs, hrest⟩⟩
    · obtain ⟨hr, hmore⟩ := ih hrest
      exact ⟨hr, List.forall_mem_cons.2 ⟨hrs, hmore⟩⟩

/-- A script promises no more than its pages do. -/
theorem promisesAtMost_script {x : Script}
    (h : ∀ e ∈ x.transactions, ∀ r ∈ e.2, ∀ p, r.answer = .ok p → p.count ≤ bound) :
    Script.node.PromisesAtMost height bound x := by
  have hk : ∀ y, Script.node.Comes height x y →
      ∀ e ∈ y.transactions, ∀ r ∈ e.2, ∀ p, r.answer = .ok p → p.count ≤ bound := by
    intro y hy
    induction hy with
    | start => exact h
    | ask before page ih => exact (nextAt_of_forall nofun height ih).2
  intro y hy page
  exact (nextAt_of_forall nofun height (hk y hy)).1

/-! ## Entries -/

/-- The entries of a page: each receipt with the envelope in its place, or with the one that it
holds. -/
structure EntriesOf (p : TxPage) (found : List (Envelope × Receipt)) : Prop where
  receipts : found.map Prod.snd = p.receipts
  envelopes : ∀ i x, found[i]? = some x →
    p.envelopes[i]? = some x.1 ∨ p.envelopes.length ≤ i ∧ TxPage.embedded x.2 = .ok x.1

/-- The entries of some pages, in their order and each one once. -/
def HeldBy (pages : List TxPage) (found : List (Envelope × Receipt)) : Prop :=
  ∃ parts : List (List (Envelope × Receipt)),
    pages.Forall₂ EntriesOf parts ∧ found = parts.flatten

/-- Why a page cannot be taken: it was not read, or a receipt without an envelope in its place holds
none. -/
def pageFault? : Except Error TxPage → Option Error
  | .error e => some e
  | .ok p => (p.receipts.drop p.envelopes.length).findSome? fun r => fault? (TxPage.embedded r)

theorem fault?_pair (es : List Envelope) (rs : List Receipt) : fault? (TxPage.pair es rs) =
    (rs.drop es.length).findSome? fun r => fault? (TxPage.embedded r) := by
  induction rs generalizing es with
  | nil => simp [TxPage.pair, fault?]
  | cons r rs ih =>
    cases es with
    | nil =>
      rw [TxPage.pair, List.length_nil, List.drop_zero, List.findSome?_cons]
      cases hr : TxPage.embedded r with
      | error e => rfl
      | ok e => exact (fault?_bind_pure _ _).trans (ih [])
    | cons e es =>
      rw [TxPage.pair, fault?_map, ih, List.length_cons, List.drop_succ_cons]

theorem fault?_transactions (r : Except Error TxPage) :
    fault? (r.bind TxPage.transactions) = pageFault? r := by
  cases r with
  | error e => rfl
  | ok p => exact fault?_pair p.envelopes p.receipts

theorem entriesOf_pair {es : List Envelope} {rs : List Receipt} {found : List (Envelope × Receipt)}
    (h : TxPage.pair es rs = .ok found) :
    found.map Prod.snd = rs ∧ ∀ i x, found[i]? = some x →
      es[i]? = some x.1 ∨ es.length ≤ i ∧ TxPage.embedded x.2 = .ok x.1 := by
  induction rs generalizing es found with
  | nil =>
    rw [TxPage.pair] at h
    cases h
    exact ⟨rfl, nofun⟩
  | cons r rs ih =>
    cases es with
    | nil =>
      obtain ⟨e, he, h⟩ := bind_eq_ok.1 h
      obtain ⟨rest, hr, h⟩ := bind_eq_ok.1 h
      obtain rfl := pure_eq_ok.1 h
      obtain ⟨hm, hx⟩ := ih hr
      refine ⟨congrArg (r :: ·) hm, ?_⟩
      rintro (_ | i) x hi
      · cases hi
        exact .inr ⟨Nat.zero_le 0, he⟩
      · exact .inr ⟨Nat.zero_le _, ((hx i x hi).resolve_left nofun).2⟩
    | cons e es =>
      rw [TxPage.pair] at h
      obtain ⟨rest, hr, rfl⟩ := map_eq_ok.1 h
      obtain ⟨hm, hx⟩ := ih hr
      refine ⟨congrArg (r :: ·) hm, ?_⟩
      rintro (_ | i) x hi
      · cases hi
        exact .inl rfl
      · exact (hx i x hi).imp id (And.imp_left Nat.succ_le_succ)

theorem entriesOf_transactions {p : TxPage} {found : List (Envelope × Receipt)}
    (h : p.transactions = .ok found) : EntriesOf p found :=
  ⟨(entriesOf_pair h).1, (entriesOf_pair h).2⟩

theorem EntriesOf.length_eq {p : TxPage} {found : List (Envelope × Receipt)}
    (h : EntriesOf p found) : found.length = p.receipts.length := by
  rw [← h.receipts, List.length_map]

end Node

namespace Client

open Node

variable {σ : Type} {c : Client σ} {height bound page before : Nat} {s : Session σ}

/-! ## Reading pages -/

/-- A page of transactions as it is read, if need be in more than one attempt. -/
def readPage (c : Client σ) (height page : Nat) : Call σ TxPage :=
  read c.searchLimit (.plain (.transactions height page)) (c.node.transactions height page)

/-- Some pages, read one after another from a page on, and what has become of the session. -/
def readPages (c : Client σ) (height : Nat) :
    Nat → Nat → Session σ → List (Except Error TxPage) × Session σ
  | 0, _, s => ([], s)
  | count + 1, page, s =>
    let (r, s) := c.readPage height page s
    let (rs, s) := readPages c height count (page + 1) s
    (r :: rs, s)

/-- The entries of some pages, all in one list. -/
def entriesOf (rs : List (Except Error TxPage)) : Except Error (List (Envelope × Receipt)) :=
  (rs.mapM fun r : Except Error TxPage => r.bind TxPage.transactions).map List.flatten

theorem entriesOf_cons_ok {p : TxPage} {found : List (Envelope × Receipt)}
    (h : p.transactions = .ok found) (rs : List (Except Error TxPage)) :
    entriesOf (.ok p :: rs) = (entriesOf rs).map (found ++ ·) := by
  have hp : (Except.ok p : Except Error TxPage).bind TxPage.transactions = .ok found := h
  unfold entriesOf
  rw [List.mapM_cons, hp]
  cases rs.mapM fun r : Except Error TxPage => r.bind TxPage.transactions with
  | error e => rfl
  | ok parts => rfl

theorem entriesOf_cons_error {r : Except Error TxPage} {e : Error}
    (h : r.bind TxPage.transactions = .error e) (rs : List (Except Error TxPage)) :
    entriesOf (r :: rs) = .error e := by
  unfold entriesOf
  rw [List.mapM_cons, h]
  rfl

theorem searchPage_eq (c : Client σ) (height page before : Nat) (s : Session σ) :
    c.searchPage height (page, before) s =
      ((c.readPage height page s).1.bind fun p =>
        p.transactions.map fun found => (found, searchNext page before p),
        (c.readPage height page s).2) :=
  rfl

/-- What is promised from now on is promised behind a page, and by the page itself. -/
theorem promises_readPage (h : c.node.PromisesAtMost height bound s.node) (page : Nat) :
    c.node.PromisesAtMost height bound (c.readPage height page s).2.node ∧
      ∀ p, (c.readPage height page s).1 = .ok p → p.count ≤ bound := by
  have hk : ∀ u : Session σ, c.node.PromisesAtMost height bound u.node →
      c.node.PromisesAtMost height bound (ask c.searchLimit (.plain (.transactions height page))
        (c.node.transactions height page) u).2.node := by
    intro u hu
    rw [node_ask]
    exact promisesAtMost_ask page hu
  refine ⟨Attempts.startingAt_keeps hk 1 (Attempts.maxCalls - 1) h, ?_⟩
  intro p hp
  obtain ⟨u, hu, ha⟩ := Attempts.exists_of_startingAt hk h hp
  exact hu u.node .start page p (ask_eq_ok ha)

/-! ## Where a search stops -/

/-- A page behind which a search stops when so many entries have come. -/
def Stops (p : TxPage) (found : Nat) : Prop :=
  p.receipts = [] ∨ p.count ≤ found

theorem searchNext_of_stops {p : TxPage} (h : Stops p (before + p.receipts.length)) (page : Nat) :
    searchNext page before p = none :=
  if_pos h

theorem searchNext_of_not_stops {p : TxPage} (h : ¬Stops p (before + p.receipts.length))
    (page : Nat) : searchNext page before p = some (page + 1, before + p.receipts.length) :=
  if_neg h

/-- A search that goes through `k` pages and then comes to an end: behind a page at which it stops,
or with an error. -/
structure EndsAfter (c : Client σ) (height k page before : Nat) (s : Session σ) : Prop where
  result : ∀ limit, k ≤ limit → gather (c.searchPage height) limit (page, before) s =
    (some (entriesOf (c.readPages height k page s).1), (c.readPages height k page s).2)
  stops : ∀ found, entriesOf (c.readPages height k page s).1 = .ok found →
    ∃ last, (c.readPages height k page s).1.getLast? = some (.ok last) ∧
      Stops last (before + found.length)

section EndsAfter

variable {r : Except Error TxPage} {u : Session σ} {p : TxPage}
  {found : List (Envelope × Receipt)}

theorem readPages_one (h : c.readPage height page s = (r, u)) :
    c.readPages height 1 page s = ([r], u) := by
  rw [readPages, h]
  rfl

theorem endsAfter_of_error {e : Error} (h : c.readPage height page s = (r, u))
    (ht : r.bind TxPage.transactions = .error e) : c.EndsAfter height 1 page before s := by
  have hp : c.searchPage height (page, before) s = (.error e, u) := by
    rw [searchPage_eq, h]
    cases r with
    | error e' => cases ht; rfl
    | ok p =>
      have ht' : p.transactions = .error e := ht
      simp only [Except.bind, ht', Except.map]
  have he := entriesOf_cons_error ht []
  refine ⟨?_, ?_⟩
  · intro limit hl
    rw [readPages_one h, gather_of_error hp hl, he]
  · intro found hf
    rw [readPages_one h, he] at hf
    cases hf

theorem searchPage_of_ok (h : c.readPage height page s = (.ok p, u))
    (ht : p.transactions = .ok found) (before : Nat) :
    c.searchPage height (page, before) s = (.ok (found, searchNext page before p), u) := by
  rw [searchPage_eq, h]
  simp only [Except.bind, ht, Except.map]

theorem endsAfter_of_stops (h : c.readPage height page s = (.ok p, u))
    (ht : p.transactions = .ok found) (hs : Stops p (before + p.receipts.length)) :
    c.EndsAfter height 1 page before s := by
  have hp := searchPage_of_ok h ht before
  rw [searchNext_of_stops hs] at hp
  have he : entriesOf [.ok p] = .ok found := by
    rw [entriesOf_cons_ok ht]
    exact congrArg Except.ok (List.append_nil found)
  refine ⟨?_, ?_⟩
  · intro limit hl
    rw [readPages_one h, gather_of_last hp hl, he]
  · intro found' hf
    rw [readPages_one h, he] at hf
    cases hf
    rw [readPages_one h, (entriesOf_transactions ht).length_eq]
    exact ⟨p, rfl, hs⟩

theorem endsAfter_of_more {k : Nat} (h : c.readPage height page s = (.ok p, u))
    (ht : p.transactions = .ok found) (hs : ¬Stops p (before + p.receipts.length))
    (rest : c.EndsAfter height k (page + 1) (before + p.receipts.length) u) :
    c.EndsAfter height (k + 1) page before s := by
  have hp := searchPage_of_ok h ht before
  rw [searchNext_of_not_stops hs] at hp
  have hr : c.readPages height (k + 1) page s = (.ok p :: (c.readPages height k (page + 1) u).1,
      (c.readPages height k (page + 1) u).2) := by
    rw [readPages, h]
  refine ⟨?_, ?_⟩
  · intro limit hl
    rw [hr, gather_of_more hp rest.result hl, entriesOf_cons_ok ht]
  · intro all hf
    rw [hr, entriesOf_cons_ok ht] at hf
    obtain ⟨more, hm, rfl⟩ := map_eq_ok.1 hf
    obtain ⟨last, hl, hstop⟩ := rest.stops more hm
    refine ⟨last, ?_, ?_⟩
    · rw [hr, List.getLast?_cons, hl]
      rfl
    · rw [List.length_append, (entriesOf_transactions ht).length_eq, ← Nat.add_assoc]
      exact hstop

end EndsAfter

/-- A search comes to an end. The pages that it goes through are no more than the transactions that
are still promised, or it is one page. -/
theorem exists_endsAfter (promised : c.node.PromisesAtMost height bound s.node)
    (page before : Nat) :
    ∃ k, 1 ≤ k ∧ k ≤ max 1 (bound - before) ∧ c.EndsAfter height k page before s := by
  -- Every page but the last one brings something, which leaves less to come.
  induction hn : bound - before using Nat.strongRecOn generalizing before page s with
  | _ n ih =>
    obtain ⟨promised', hcount⟩ := promises_readPage promised page
    rcases hr : c.readPage height page s with ⟨r, u⟩
    rw [hr] at promised' hcount
    cases ht : r.bind TxPage.transactions with
    | error e => exact ⟨1, Nat.le_refl 1, Nat.le_max_left .., endsAfter_of_error hr ht⟩
    | ok found =>
      obtain ⟨p, rfl, hp⟩ := bind_eq_ok.1 ht
      by_cases hs : Stops p (before + p.receipts.length)
      · exact ⟨1, Nat.le_refl 1, Nat.le_max_left .., endsAfter_of_stops hr hp hs⟩
      · have hb := hcount p rfl
        obtain ⟨hne, hlt⟩ := not_or.1 hs
        have hpos := List.length_pos_iff.2 hne
        obtain ⟨k, hk, hle, rest⟩ := ih (bound - (before + p.receipts.length)) (by omega)
          promised' (page + 1) (before + p.receipts.length) rfl
        exact ⟨k + 1, by omega, by omega, endsAfter_of_more hr hp hs rest⟩

/-! ## Searches -/

/-- Questions about so many pages, in order, each of them put as often as `tries` says. -/
def pageQuestions (height page : Nat) : List Nat → List Asked
  | [] => []
  | n :: tries =>
    List.replicate n (.plain (.transactions height page)) ++ pageQuestions height (page + 1) tries

theorem asked_readPages (c : Client σ) (height k page : Nat) (s : Session σ) :
    ∃ tries : List Nat, tries.length = k ∧ (∀ n ∈ tries, 1 ≤ n ∧ n ≤ Attempts.maxCalls) ∧
      (c.readPages height k page s).2.asked = s.asked ++ pageQuestions height page tries := by
  induction k generalizing page s with
  | zero => exact ⟨[], rfl, nofun, (List.append_nil _).symm⟩
  | succ k ih =>
    obtain ⟨n, hn, hle, ha⟩ := asked_read c.searchLimit (.plain (.transactions height page))
      (c.node.transactions height page) s
    obtain ⟨tries, hl, ht, hrest⟩ := ih (page + 1) (c.readPage height page s).2
    refine ⟨n :: tries, congrArg (· + 1) hl, List.forall_mem_cons.2 ⟨⟨hn, hle⟩, ht⟩, ?_⟩
    refine hrest.trans ?_
    rw [readPage, ha, List.append_assoc, pageQuestions]

theorem fault?_entriesOf (rs : List (Except Error TxPage)) :
    fault? (entriesOf rs) = rs.findSome? pageFault? := by
  unfold entriesOf
  rw [fault?_map, fault?_mapM]
  simp only [fault?_transactions]

theorem heldBy_of_entriesOf {rs : List (Except Error TxPage)}
    {found : List (Envelope × Receipt)} (h : entriesOf rs = .ok found) :
    ∃ pages : List TxPage, rs = pages.map .ok ∧ HeldBy pages found := by
  obtain ⟨parts, hm, rfl⟩ := map_eq_ok.1 h
  clear h
  rw [mapM_eq_ok] at hm
  induction hm with
  | nil => exact ⟨[], rfl, [], .nil, rfl⟩
  | @cons r part rs parts hr _ ih =>
    obtain ⟨p, rfl, hp⟩ := bind_eq_ok.1 hr
    obtain ⟨pages, rfl, parts', he, hf⟩ := ih
    refine ⟨p :: pages, rfl, part :: parts', .cons (entriesOf_transactions hp) he, ?_⟩
    rw [List.flatten_cons, List.flatten_cons, hf]

/-- If a node never promises more than some number of transactions, a search comes to an end. It
asks for the first pages, in order and as many as are promised at most, or for one. With any number
of allowed pages from there on it fails with the first fault of these pages, or it finds the entries
of all of them in their order; these are as many as the last page promises, unless that is empty. -/
theorem search_ends (c : Client σ) {bound : Nat} {b : Block} {s : Session σ}
    (promised : c.node.PromisesAtMost b.height bound s.node) :
    ∃ k rs u r, c.readPages b.height k 1 s = (rs, u) ∧ 1 ≤ k ∧ k ≤ max 1 bound ∧
      (∀ limit, k ≤ limit → c.search limit b s = (some r, u)) ∧
      (∃ tries : List Nat, tries.length = k ∧ (∀ n ∈ tries, 1 ≤ n ∧ n ≤ 3) ∧
        u.asked = s.asked ++ pageQuestions b.height 1 tries) ∧
      fault? r = rs.findSome? pageFault? ∧
      ∀ found, r = .ok found → ∃ pages : List TxPage, rs = pages.map .ok ∧ HeldBy pages found ∧
        ∃ last ∈ pages.getLast?, last.receipts = [] ∨ last.count ≤ found.length := by
  obtain ⟨k, hk, hle, ends⟩ := exists_endsAfter promised 1 0
  refine ⟨k, _, _, entriesOf (c.readPages b.height k 1 s).1, rfl, hk, hle, ends.result,
    asked_readPages c b.height k 1 s, fault?_entriesOf _, ?_⟩
  intro found hf
  obtain ⟨pages, hr, held⟩ := heldBy_of_entriesOf hf
  obtain ⟨last, hl, hs⟩ := ends.stops found hf
  rw [hr, List.getLast?_map] at hl
  obtain ⟨last', hl', ⟨⟩⟩ := Option.map_eq_some_iff.1 hl
  rw [Nat.zero_add] at hs
  exact ⟨pages, hr, held, last, hl', hs⟩

/-- A page with one of five transactions, a refusal, and two more transactions of what are now
three, with their envelopes in the receipts. -/
def wavering : Script :=
  let receipt (hash : String) : Receipt :=
    ⟨7, hash, "", 0, "", "", 1, 1, [], [], some ⟨"/cosmos.tx.v1beta1.Tx", []⟩⟩
  { latest := [], blocks := [], rewards := [], delegations := [], unbonding := []
    transactions := [(7, [⟨5, .ok ⟨[⟨[]⟩], [receipt "a"], 5, none⟩⟩,
      ⟨5, .error ⟨.unavailable, "busy"⟩⟩,
      ⟨5, .ok ⟨[], [receipt "b", receipt "c"], 1, some ⟨[], 3⟩⟩⟩])] }

/-- A client of a scripted node. -/
def reader : Client Script :=
  ⟨Script.node, "", 10, 10, ⟨"http", "", "", none, none, .segments [], none, none⟩, ""⟩

/-- The search ends on the second page, which it asks for twice. -/
theorem search_ends_wavering :
    let s : Session Script := ⟨wavering, .empty 1, ⟨none, []⟩, []⟩
    let b : Block := ⟨"h", 7, .epoch, "c", 3⟩
    reader.node.PromisesAtMost b.height 5 s.node ∧
      ∃ k u found, 1 ≤ k ∧ k ≤ 5 ∧
        (∀ limit, k ≤ limit → reader.search limit b s = (some (.ok found), u)) ∧
        found.map (fun x => x.2.txHash) = ["a", "b", "c"] ∧
        u.asked = [.plain (.transactions 7 1), .plain (.transactions 7 2),
          .plain (.transactions 7 2)] := by
  intro s b
  have promised : reader.node.PromisesAtMost b.height 5 s.node := by
    refine promisesAtMost_script fun e he r hr p hp => ?_
    simp only [s, wavering, List.mem_singleton] at he
    subst he
    simp only [List.mem_cons, List.not_mem_nil, or_false] at hr
    rcases hr with rfl | rfl | rfl
    · cases hp
      decide
    · cases hp
    · cases hp
      decide
  obtain ⟨k, rs, u, r, -, hk, hle, hr, -⟩ := search_ends reader promised
  have hfive := hr 5 hle
  have hfound : ∃ found v, reader.search 5 b s = (some (.ok found), v) ∧
      found.map (fun x => x.2.txHash) = ["a", "b", "c"] ∧
      v.asked = [.plain (.transactions 7 1), .plain (.transactions 7 2),
        .plain (.transactions 7 2)] := ⟨_, _, rfl, rfl, rfl⟩
  obtain ⟨found, v, hv, hh, ha⟩ := hfound
  obtain ⟨rfl, rfl⟩ : r = .ok found ∧ u = v := by
    rw [hfive] at hv
    simpa using hv
  exact ⟨promised, k, u, found, hk, hle, hr, hh, ha⟩

end Client

end ChainIndexer
