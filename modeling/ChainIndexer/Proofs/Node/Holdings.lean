import ChainIndexer.Proofs.Amount.Readings
import ChainIndexer.Proofs.Node.Pages
import ChainIndexer.Proofs.Node.Search
import ChainIndexer.Proofs.Time.Instant

/-
  What an account has delegated, page by page.

  Each page names the key of the next one, and the last names none. Pages that hang together in this
  way are asked for in their order and each of them once, up to the first that holds an amount which
  cannot be read (`gather_of_chained`). What comes of all of them is what they hold, item by item
  (`getDelegations_of_chained`). A share is a decimal of the chain: an integer counts units of
  `10 ^ -18`, and with a point it is read as it stands.
-/

namespace ChainIndexer

open Outcome Text

namespace Node

open Message

variable {σ P : Type}

/-! ## Pages that hang together -/

/-- The key that a page names; it is empty if the page names none. -/
def keyBehind (mark : Option PageMark) : Bytes :=
  (mark.map PageMark.nextKey).getD []

theorem nextPage?_eq (mark : Option PageMark) :
    nextPage? mark = if keyBehind mark = [] then none else some (keyBehind mark) := by
  cases mark with
  | none => rfl
  | some m => rfl

/-- A chain of pages. The first is the answer to a key, each other one to the key that the page
before it names, and the last one names no key. All answers come in time, and with them the node
goes from one state to another. -/
inductive Chained (limit : Nat) (question : Bytes → σ → Reply P × σ) (mark : P → Option PageMark) :
    Bytes → σ → List P → σ → Prop
  | last {key : Bytes} {x y : σ} {p : P} {delay : Nat}
      (answered : question key x = (⟨delay, .ok p⟩, y)) (inTime : delay ≤ limit * 1000)
      (unnamed : keyBehind (mark p) = []) : Chained limit question mark key x [p] y
  | more {key : Bytes} {x y z : σ} {p : P} {ps : List P} {delay : Nat}
      (answered : question key x = (⟨delay, .ok p⟩, y)) (inTime : delay ≤ limit * 1000)
      (named : keyBehind (mark p) ≠ [])
      (rest : Chained limit question mark (keyBehind (mark p)) y ps z) :
      Chained limit question mark key x (p :: ps) z

/-- The keys of some pages: that of the first one, and for each other one the key that the page
before it names. -/
def keysOf (mark : P → Option PageMark) : Bytes → List P → List Bytes
  | _, [] => []
  | key, p :: ps => key :: keysOf mark (keyBehind (mark p)) ps

theorem length_keysOf (mark : P → Option PageMark) (key : Bytes) (ps : List P) :
    (keysOf mark key ps).length = ps.length := by
  induction ps generalizing key with
  | nil => rfl
  | cons p ps ih => exact congrArg (· + 1) (ih _)

/-! ## Amounts on pages -/

/-- Why a text is no amount, if it is none. -/
def amountFault? (text : String) : Option Error :=
  (fault? (Amount.readNumeric text.toList)).map .ofAmount

/-- The items of a page that have a delegation, each with what it is worth. -/
def DelegationPage.kept (p : DelegationPage) : List (DelegationItem × Option Coin) :=
  p.items.filterMap fun (item, balance) => item.map fun item => (item, balance)

/-- The texts of the amounts of a page, in the order in which they are read. -/
def DelegationPage.amounts (p : DelegationPage) : List String :=
  p.kept.flatMap fun (item, balance) => (balance.map Coin.amount).toList ++ [item.shares]

/-- The texts of the amounts of a page, in the order in which they are read. -/
def UnbondingPage.amounts (p : UnbondingPage) : List String :=
  p.items.flatMap fun item => item.entries.flatMap fun e => [e.initialBalance, e.balance]

/-- The pages that are read, by the texts of their amounts: all of them, or those up to the first
with a text that is no amount. -/
def pagesRead : List (List String) → List (List String)
  | [] => []
  | texts :: rest =>
    match texts.findSome? amountFault? with
    | none => texts :: pagesRead rest
    | some _ => [texts]

theorem pagesRead_cons_of_none {texts : List String} (h : texts.findSome? amountFault? = none)
    (rest : List (List String)) : pagesRead (texts :: rest) = texts :: pagesRead rest := by
  rw [pagesRead, h]

theorem pagesRead_cons_of_some {texts : List String} {e : Error}
    (h : texts.findSome? amountFault? = some e) (rest : List (List String)) :
    pagesRead (texts :: rest) = [texts] := by
  rw [pagesRead, h]

theorem pagesRead_append (pages more : List (List String)) : pagesRead (pages ++ more) =
    if pages.flatten.findSome? amountFault? = none then pages ++ pagesRead more
    else pagesRead pages := by
  induction pages with
  | nil => rfl
  | cons texts pages ih =>
    rw [List.cons_append, List.flatten_cons, List.findSome?_append]
    cases h : texts.findSome? amountFault? with
    | none =>
      rw [pagesRead_cons_of_none h, pagesRead_cons_of_none h, ih, Option.none_or]
      split
      · rfl
      · rfl
    | some e =>
      rw [pagesRead_cons_of_some h, pagesRead_cons_of_some h]
      exact (if_neg nofun).symm

/-- Where no page is at fault, all are read. -/
theorem pagesRead_eq_self {pages : List (List String)}
    (h : pages.flatten.findSome? amountFault? = none) : pagesRead pages = pages := by
  have ha := pagesRead_append pages []
  rwa [if_pos h, List.append_nil, pagesRead, List.append_nil] at ha

/-- The first fault is on a page that is read. -/
theorem findSome?_pagesRead (pages : List (List String)) :
    (pagesRead pages).flatten.findSome? amountFault? = pages.flatten.findSome? amountFault? := by
  induction pages with
  | nil => rfl
  | cons texts pages ih =>
    rw [List.flatten_cons, List.findSome?_append]
    cases h : texts.findSome? amountFault? with
    | none =>
      rw [pagesRead_cons_of_none h, List.flatten_cons, List.findSome?_append, h, ih]
    | some e =>
      rw [pagesRead_cons_of_some h, List.flatten_singleton, h]
      rfl

theorem length_pagesRead_le (pages : List (List String)) :
    (pagesRead pages).length ≤ pages.length := by
  induction pages with
  | nil => exact Nat.le_refl 0
  | cons texts pages ih =>
    rw [pagesRead]
    split
    · exact Nat.succ_le_succ ih
    · exact Nat.succ_le_succ (Nat.zero_le _)

/-! ## Faults of pages -/

theorem fault?_ofCoin (value denom : String) :
    fault? ((Amount.ofCoin value denom).mapError Error.ofAmount) = amountFault? value := by
  unfold Amount.ofCoin amountFault?
  rw [fault?_mapError, fault?_map]

theorem fault?_ofDecimal (value denom : String) :
    fault? ((Amount.ofDecimal value denom).mapError Error.ofAmount) = amountFault? value := by
  rw [Amount.ofDecimal_eq, fault?_mapError, fault?_map, ← fault?_mapError, fault?_ofCoin]

theorem fault?_delegationOf (item : DelegationItem) (balance : Option Coin) :
    fault? (delegationOf item balance) =
      ((balance.map Coin.amount).toList ++ [item.shares]).findSome? amountFault? := by
  unfold delegationOf
  rw [List.findSome?_append, List.findSome?_singleton]
  have hs : ∀ b : Amount, fault? (do
      let shares ← (Amount.ofDecimal item.shares "").mapError Error.ofAmount
      return (⟨item.delegator, item.validator, shares, b⟩ : Delegation)) =
        amountFault? item.shares := by
    intro b
    rw [fault?_bind_pure, fault?_ofDecimal]
  cases balance with
  | none => exact hs _
  | some c =>
    rw [Option.map_some, Option.toList_some, List.findSome?_singleton,
      ← fault?_ofCoin c.amount c.denom]
    exact fault?_bind fun b _ => hs b

theorem fault?_delegations (p : DelegationPage) :
    fault? p.delegations = p.amounts.findSome? amountFault? := by
  unfold DelegationPage.delegations DelegationPage.amounts
  rw [fault?_mapM, findSome?_flatMap]
  simp only [fault?_delegationOf]
  rfl

theorem fault?_entryOf (e : UnbondingItemEntry) :
    fault? (entryOf e) = [e.initialBalance, e.balance].findSome? amountFault? := by
  unfold entryOf coinAmount
  rw [findSome?_cons_or, List.findSome?_singleton, ← fault?_ofCoin e.initialBalance "",
    ← fault?_ofCoin e.balance ""]
  exact fault?_bind fun b _ => fault?_bind_pure _ _

theorem fault?_unbondingOf (item : UnbondingItem) : fault? (unbondingOf item) =
    (item.entries.flatMap fun e => [e.initialBalance, e.balance]).findSome? amountFault? := by
  unfold unbondingOf
  rw [fault?_bind_pure, fault?_mapM, findSome?_flatMap]
  simp only [fault?_entryOf]

theorem fault?_unbonding (p : UnbondingPage) :
    fault? p.unbonding = p.amounts.findSome? amountFault? := by
  unfold UnbondingPage.unbonding UnbondingPage.amounts
  rw [fault?_mapM, findSome?_flatMap]
  simp only [fault?_unbondingOf]

/-- Pages that are gone through have the first fault of their amounts. -/
theorem fault?_mapM_pages {α : Type} {items : P → Except Error (List α)} {texts : P → List String}
    (faults : ∀ p, fault? (items p) = (texts p).findSome? amountFault?) (ps : List P) :
    fault? (ps.mapM items) = (ps.map texts).flatten.findSome? amountFault? := by
  rw [fault?_mapM, ← List.flatMap_def, findSome?_flatMap]
  simp only [faults]

/-! ## What pages hold -/

/-- A decimal of the chain without a currency: the number that its text has as a coin. With a point
it has the places of that coin, and an integer has 18. -/
structure DecimalOf (text : String) (a : Amount) : Prop where
  value : ∃ c, Amount.ofCoin text "" = .ok c ∧ a.text = c.text ∧ a.numeric = c.numeric ∧
    a.currency = c.currency ∧ ('.' ∈ text.toList → a.exp = c.exp)
  places : '.' ∉ text.toList → ',' ∉ text.toList → a.exp = 18

/-- A delegation as a page has it. -/
structure DelegationOf (item : DelegationItem × Option Coin) (d : Delegation) : Prop where
  delegator : d.delegator = item.1.delegator
  validator : d.validator = item.1.validator
  shares : DecimalOf item.1.shares d.shares
  balance : ∀ c ∈ item.2, Amount.ofCoin c.amount c.denom = .ok d.balance
  unvalued : item.2 = none → d.balance = ⟨"0", 0, 0, ""⟩

/-- An unbonding entry as a page has it. It is complete at an instant if the page has the parts of
that instant, and else at none. -/
structure EntryOf (e : UnbondingItemEntry) (u : UnbondingEntry) : Prop where
  creationHeight : u.creationHeight = e.creationHeight
  completion : ∀ t : Instant,
    u.completion = some t ↔ e.completion = some (t.seconds, (t.nanos : Int))
  initialBalance : Amount.ofCoin e.initialBalance "" = .ok u.initialBalance
  balance : Amount.ofCoin e.balance "" = .ok u.balance

/-- What is on its way back, as a page has it. -/
structure UnbondingOf (item : UnbondingItem) (u : Unbonding) : Prop where
  delegator : u.delegator = item.delegator
  validator : u.validator = item.validator
  entries : item.entries.Forall₂ EntryOf u.entries

theorem decimalOf_of_ofDecimal {text : String} {a : Amount} (h : Amount.ofDecimal text "" = .ok a) :
    DecimalOf text a := by
  rw [Amount.ofDecimal_eq, map_eq_ok] at h
  obtain ⟨c, hc, rfl⟩ := h
  exact ⟨⟨c, hc, rfl, rfl, rfl, fun hp => if_pos hp⟩, fun hp _ => if_neg hp⟩

theorem delegationOf_of_ok {item : DelegationItem} {balance : Option Coin} {d : Delegation}
    (h : delegationOf item balance = .ok d) : DelegationOf (item, balance) d := by
  unfold delegationOf at h
  cases balance with
  | none =>
    obtain ⟨b, hb, h⟩ := bind_eq_ok.1 h
    obtain ⟨shares, hs, h⟩ := bind_eq_ok.1 h
    obtain rfl := pure_eq_ok.1 h
    exact ⟨rfl, rfl, decimalOf_of_ofDecimal (mapError_eq_ok.1 hs), nofun,
      fun _ => (Except.ok.inj hb).symm⟩
  | some c =>
    obtain ⟨b, hb, h⟩ := bind_eq_ok.1 h
    obtain ⟨shares, hs, h⟩ := bind_eq_ok.1 h
    obtain rfl := pure_eq_ok.1 h
    refine ⟨rfl, rfl, decimalOf_of_ofDecimal (mapError_eq_ok.1 hs), ?_, nofun⟩
    rintro _ ⟨⟩
    exact mapError_eq_ok.1 hb

theorem entryOf_of_ok {e : UnbondingItemEntry} {u : UnbondingEntry} (h : entryOf e = .ok u) :
    EntryOf e u := by
  obtain ⟨initial, hi, h⟩ := bind_eq_ok.1 h
  obtain ⟨b, hb, h⟩ := bind_eq_ok.1 h
  obtain rfl := pure_eq_ok.1 h
  refine ⟨rfl, fun t => ?_, mapError_eq_ok.1 hi, mapError_eq_ok.1 hb⟩
  simp only [Option.bind_eq_some_iff, Instant.ofSigned?_eq_some_iff, exists_eq_right]

theorem unbondingOf_of_ok {item : UnbondingItem} {u : Unbonding} (h : unbondingOf item = .ok u) :
    UnbondingOf item u := by
  obtain ⟨entries, he, h⟩ := bind_eq_ok.1 h
  obtain rfl := pure_eq_ok.1 h
  exact ⟨rfl, rfl, (mapM_eq_ok.1 he).imp fun _ _ => entryOf_of_ok⟩

theorem delegationOf_of_page (p : DelegationPage) (found : List Delegation)
    (h : p.delegations = .ok found) : p.kept.Forall₂ DelegationOf found :=
  (mapM_eq_ok.1 h).imp fun _ _ => delegationOf_of_ok

theorem unbondingOf_of_page (p : UnbondingPage) (found : List Unbonding)
    (h : p.unbonding = .ok found) : p.items.Forall₂ UnbondingOf found :=
  (mapM_eq_ok.1 h).imp fun _ _ => unbondingOf_of_ok

/-- What pages hold stands in one list in the order of the pages. -/
theorem forall₂_of_pages {A B : Type} {items : P → Except Error (List B)} {held : P → List A}
    {R : A → B → Prop} (h : ∀ p found, items p = .ok found → (held p).Forall₂ R found)
    {ps : List P} {all : List B} (ok : (ps.mapM items).map List.flatten = .ok all) :
    (ps.flatMap held).Forall₂ R all := by
  obtain ⟨parts, hm, rfl⟩ := map_eq_ok.1 ok
  rw [List.flatMap_def]
  exact List.rel_flatten (List.forall₂_map_left_iff.2 ((mapM_eq_ok.1 hm).imp h))

end Node

namespace Client

open Node

variable {σ P α : Type}

/-! ## Going along a chain -/

/-- A page behind a key: its items, and the key of the next page. -/
def keyedPage (limit : Nat) (asked : Bytes → Asked) (question : Bytes → σ → Reply P × σ)
    (mark : P → Option PageMark) (items : P → Except Error (List α)) (key : Bytes) :
    Call σ (List α × Option Bytes) := fun s =>
  let (r, s) := read limit (asked key) (question key) s
  (r.bind fun p => (items p).map fun found => (found, nextPage? (mark p)), s)

theorem delegationPage_eq (c : Client σ) (q : AccountQuery) : c.delegationPage q =
    keyedPage c.searchLimit (fun key => .at (.delegations q.account key) q.height)
      (c.node.delegations q) DelegationPage.mark DelegationPage.delegations :=
  rfl

theorem unbondingPage_eq (c : Client σ) (q : AccountQuery) : c.unbondingPage q =
    keyedPage c.searchLimit (fun key => .at (.unbonding q.account key) q.height)
      (c.node.unbonding q) UnbondingPage.mark UnbondingPage.unbonding :=
  rfl

variable {limit : Nat} {asked : Bytes → Asked} {question : Bytes → σ → Reply P × σ}
  {mark : P → Option PageMark} {items : P → Except Error (List α)} {texts : P → List String}
  {key : Bytes} {x y : σ} {p : P} {ps : List P} {s : Session σ}

theorem keyedPage_of_answer (asked : Bytes → Asked) (mark : P → Option PageMark)
    (items : P → Except Error (List α)) {delay : Nat}
    (answered : question key s.node = (⟨delay, .ok p⟩, y)) (inTime : delay ≤ limit * 1000) :
    keyedPage limit asked question mark items key s =
      ((items p).map fun found => (found, nextPage? (mark p)),
        { s with node := y, asked := s.asked ++ [asked key] }) := by
  have hr : read limit (asked key) (question key) s =
      (.ok p, { s with node := (question key s.node).2, asked := s.asked ++ [asked key] }) :=
    read_of_answer (by rw [answered]) (by rw [answered]; exact inTime)
  unfold keyedPage
  rw [hr, answered]
  rfl

/-- Going along a chain of pages ends in a session: behind the last of them, with what all of them
hold, or behind the first one that is at fault. That takes no more pages than there are. -/
structure EndsIn (limit : Nat) (asked : Bytes → Asked) (question : Bytes → σ → Reply P × σ)
    (mark : P → Option PageMark) (items : P → Except Error (List α)) (texts : P → List String)
    (key : Bytes) (ps : List P) (y : σ) (s u : Session σ) : Prop where
  result : ∀ n, ps.length ≤ n → gather (keyedPage limit asked question mark items) n key s =
    (some ((ps.mapM items).map List.flatten), u)
  asked_eq : u.asked = s.asked ++
    ((keysOf mark key ps).take (pagesRead (ps.map texts)).length).map asked
  node_eq : ∀ parts, ps.mapM items = .ok parts → u.node = y

section EndsIn

variable {u v : Session σ} {found : List α} {e : Error}

/-- A chain ends at its first page if that is at fault. -/
theorem endsIn_of_error (ht : (texts p).findSome? amountFault? = some e) (hi : items p = .error e)
    (hp : keyedPage limit asked question mark items key s = (.error e, u))
    (ha : u.asked = s.asked ++ [asked key]) (ps : List P) (y : σ) :
    EndsIn limit asked question mark items texts key (p :: ps) y s u := by
  have hm : (p :: ps).mapM items = .error e := by
    rw [List.mapM_cons, hi]
    rfl
  refine ⟨?_, ?_, ?_⟩
  · intro n hn
    rw [gather_of_error hp (Nat.le_trans (Nat.le_add_left 1 _) hn), hm]
    rfl
  · rw [ha, List.map_cons, pagesRead_cons_of_some ht, keysOf]
    rfl
  · intro parts hparts
    rw [hm] at hparts
    cases hparts

theorem endsIn_of_last (ht : (texts p).findSome? amountFault? = none) (hi : items p = .ok found)
    (hp : keyedPage limit asked question mark items key s = (.ok (found, none), u))
    (ha : u.asked = s.asked ++ [asked key]) :
    EndsIn limit asked question mark items texts key [p] u.node s u := by
  have hm : [p].mapM items = .ok [found] := by
    rw [List.mapM_cons, hi]
    rfl
  refine ⟨?_, ?_, fun _ _ => rfl⟩
  · intro n hn
    rw [gather_of_last hp hn, hm]
    exact congrArg (fun l => (some (Except.ok l), u)) (List.append_nil found).symm
  · rw [ha, List.map_cons, pagesRead_cons_of_none ht, keysOf]
    rfl

theorem endsIn_of_more {y : σ} (ht : (texts p).findSome? amountFault? = none)
    (hi : items p = .ok found)
    (hp : keyedPage limit asked question mark items key s =
      (.ok (found, some (keyBehind (mark p))), u))
    (ha : u.asked = s.asked ++ [asked key])
    (rest : EndsIn limit asked question mark items texts (keyBehind (mark p)) ps y u v) :
    EndsIn limit asked question mark items texts key (p :: ps) y s v := by
  have hm : (p :: ps).mapM items = (ps.mapM items).map (found :: ·) := by
    rw [List.mapM_cons, hi]
    cases ps.mapM items with
    | error e => rfl
    | ok parts => rfl
  refine ⟨?_, ?_, ?_⟩
  · intro n hn
    rw [gather_of_more hp rest.result hn, hm]
    cases ps.mapM items with
    | error e => rfl
    | ok parts => rfl
  · rw [rest.asked_eq, ha, List.map_cons, pagesRead_cons_of_none ht, List.length_cons, keysOf,
      List.take_succ_cons, List.map_cons, List.append_assoc]
    rfl
  · intro parts hparts
    rw [hm] at hparts
    obtain ⟨parts, hrest, -⟩ := map_eq_ok.1 hparts
    exact rest.node_eq parts hrest

end EndsIn

/-- The pages of a chain are asked for one after another, up to the first that is at fault. -/
theorem gather_of_chained (asked : Bytes → Asked)
    (faults : ∀ p, fault? (items p) = (texts p).findSome? amountFault?)
    (chained : Chained limit question mark key x ps y) (hs : s.node = x) :
    ∃ u, EndsIn limit asked question mark items texts key ps y s u := by
  induction chained generalizing s with
  | @last key x y p delay answered inTime unnamed =>
    subst hs
    have hp := keyedPage_of_answer asked mark items answered inTime
    rw [nextPage?_eq, if_pos unnamed] at hp
    have ht := faults p
    cases hi : items p with
    | error e =>
      rw [hi] at hp ht
      exact ⟨_, endsIn_of_error ht.symm hi hp rfl [] y⟩
    | ok found =>
      rw [hi] at hp ht
      exact ⟨_, endsIn_of_last ht.symm hi hp rfl⟩
  | @more key x y z p ps delay answered inTime named rest ih =>
    subst hs
    have hp := keyedPage_of_answer asked mark items answered inTime
    rw [nextPage?_eq, if_neg named] at hp
    have ht := faults p
    cases hi : items p with
    | error e =>
      rw [hi] at hp ht
      exact ⟨_, endsIn_of_error ht.symm hi hp rfl ps z⟩
    | ok found =>
      rw [hi] at hp ht
      obtain ⟨v, hv⟩ := ih (s := { s with node := y, asked := s.asked ++ [asked key] }) rfl
      exact ⟨v, endsIn_of_more ht.symm hi hp rfl hv⟩

/-- Behind a chain without a fault, every page has been asked for. -/
theorem asked_of_ok {u : Session σ} {parts : List (List α)}
    (faults : ∀ p, fault? (items p) = (texts p).findSome? amountFault?)
    (ends : EndsIn limit asked question mark items texts key ps y s u)
    (ok : ps.mapM items = .ok parts) : u.asked = s.asked ++ (keysOf mark key ps).map asked := by
  have hf := fault?_mapM_pages faults ps
  rw [ok] at hf
  rw [ends.asked_eq, pagesRead_eq_self hf.symm, List.length_map, ← length_keysOf mark key ps,
    List.take_length]

/-! ## What an account has delegated -/

/-- The questions for some pages of delegations, and for some pages of what is on its way back. -/
def holdingQuestions (q : AccountQuery) (ps : List DelegationPage) (us : List UnbondingPage) :
    List Asked :=
  ((keysOf DelegationPage.mark [] ps).map fun key => .at (.delegations q.account key) q.height) ++
    (keysOf UnbondingPage.mark [] us).map fun key => .at (.unbonding q.account key) q.height

/-- The amounts of such pages, by page. -/
def holdingAmounts (ps : List DelegationPage) (us : List UnbondingPage) : List (List String) :=
  ps.map DelegationPage.amounts ++ us.map UnbondingPage.amounts

/-- If a node has both kinds of pages in chains, each page is asked for once and in order, up to the
first with an amount that cannot be read; the first such amount is what it fails with, and it fails
for nothing else. If it does not fail, all pages have been asked for, and what they hold is found in
their order: each unbonding, and each item that has a delegation. -/
theorem getDelegations_of_chained (c : Client σ) (q : AccountQuery) {s : Session σ}
    {ps : List DelegationPage} {us : List UnbondingPage}
    (delegated : Chained c.searchLimit (c.node.delegations q) DelegationPage.mark [] s.node ps x)
    (unbonding : Chained c.searchLimit (c.node.unbonding q) UnbondingPage.mark [] x us y) :
    ∃ r u, (∀ limit, ps.length ≤ limit → us.length ≤ limit →
        c.getDelegations limit q s = (some r, u)) ∧
      u.asked = s.asked ++
        (holdingQuestions q ps us).take (pagesRead (holdingAmounts ps us)).length ∧
      fault? r = (pagesRead (holdingAmounts ps us)).flatten.findSome? amountFault? ∧
      ∀ d, r = .ok d → u.asked = s.asked ++ holdingQuestions q ps us ∧ d.height = q.height ∧
        (ps.flatMap DelegationPage.kept).Forall₂ DelegationOf d.delegated ∧
        (us.flatMap UnbondingPage.items).Forall₂ UnbondingOf d.unbonding := by
  obtain ⟨u, hu⟩ := gather_of_chained (fun key => .at (.delegations q.account key) q.height)
    fault?_delegations delegated rfl
  have hf := fault?_mapM_pages fault?_delegations ps
  rw [findSome?_pagesRead]
  unfold holdingAmounts holdingQuestions getDelegations
  rw [delegationPage_eq, unbondingPage_eq, pagesRead_append, List.flatten_append,
    List.findSome?_append, ← hf, ← fault?_mapM_pages fault?_unbonding]
  cases hd : ps.mapM DelegationPage.delegations with
  | error e =>
    rw [hd] at hf
    refine ⟨.error e, u, ?_, ?_, rfl, nofun⟩
    · intro limit hp _
      rw [hu.result limit hp, hd]
      rfl
    · rw [if_neg nofun, hu.asked_eq, List.map_take, List.take_append_of_le_length]
      rw [List.length_map, length_keysOf, ← List.length_map DelegationPage.amounts]
      exact length_pagesRead_le _
  | ok parts =>
    obtain ⟨v, hv⟩ := gather_of_chained (fun key => .at (.unbonding q.account key) q.height)
      fault?_unbonding unbonding (hu.node_eq parts hd)
    have hasked := asked_of_ok fault?_delegations hu hd
    have hl : (ps.map DelegationPage.amounts).length = ((keysOf DelegationPage.mark [] ps).map
        fun key => Asked.at (.delegations q.account key) q.height).length := by
      rw [List.length_map, List.length_map, length_keysOf]
    refine ⟨((us.mapM UnbondingPage.unbonding).map List.flatten).map fun all =>
      ⟨q.height, parts.flatten, all⟩, v, ?_, ?_, ?_, ?_⟩
    · intro limit hp hl
      rw [hu.result limit hp, hd]
      dsimp only [Except.map]
      rw [hv.result limit hl]
      rfl
    · -- All questions of the first chain stand in front of those of the second.
      rw [hv.asked_eq, hasked, if_pos (by rfl), List.length_append, hl,
        List.take_length_add_append, ← List.map_take, List.append_assoc]
    · rw [fault?_map, fault?_map]
      rfl
    · intro d hok
      obtain ⟨all, hall, rfl⟩ := map_eq_ok.1 hok
      obtain ⟨backs, hb, -⟩ := map_eq_ok.1 hall
      refine ⟨?_, rfl, ?_, forall₂_of_pages unbondingOf_of_page hall⟩
      · rw [asked_of_ok fault?_unbonding hv hb, hasked, List.append_assoc]
      · exact forall₂_of_pages delegationOf_of_page (by rw [hd]; rfl)

/-- A node with two pages of each kind. An item of the first page has no delegation, an entry has no
valid time, and the last page names an empty key. -/
def keyed (shares : String) : Node Unit where
  block _ _ := (Script.exhausted, ())
  transactions _ _ _ := (Script.exhausted, ())
  rewards _ _ := (Script.exhausted, ())
  delegations _ key _ :=
    (⟨5, .ok (if key = [] then
      ⟨[(some ⟨"d", "v", shares⟩, some ⟨"uatom", "2"⟩), (none, some ⟨"uatom", "?"⟩)], some ⟨[1], 0⟩⟩
      else ⟨[(some ⟨"d", "w", "7"⟩, none)], none⟩)⟩, ())
  unbonding _ key _ :=
    (⟨5, .ok (if key = [] then
      ⟨[⟨"d", "v", [⟨5, some (60, 7), "3", "2"⟩, ⟨6, some (60, -1), "1", "1"⟩]⟩], some ⟨[9], 0⟩⟩
      else ⟨[⟨"d", "w", []⟩], some ⟨[], 0⟩⟩)⟩, ())

/-- A client of such a node. -/
def holder (shares : String) : Client Unit :=
  { pager [] with node := keyed shares }

theorem getDelegations_of_chained_keyed :
    let c := holder "2000000000000000000"
    let q : AccountQuery := ⟨12, "a"⟩
    let s : Session Unit := ⟨(), .empty 1, ⟨none, []⟩, []⟩
    ∃ ps us, Chained c.searchLimit (c.node.delegations q) DelegationPage.mark [] s.node ps () ∧
      Chained c.searchLimit (c.node.unbonding q) UnbondingPage.mark [] () us () ∧
      ps.length = 2 ∧ us.length = 2 ∧
      ∃ d u, (∀ limit, 2 ≤ limit → c.getDelegations limit q s = (some (.ok d), u)) ∧
        d.height = 12 ∧ d.delegated = [
          ⟨"d", "v", ⟨"2000000000000000000", 2000000000000000000, 18, ""⟩, ⟨"2", 2, 0, "uatom"⟩⟩,
          ⟨"d", "w", ⟨"7", 7, 18, ""⟩, ⟨"0", 0, 0, ""⟩⟩] ∧
        d.unbonding.map (fun b => b.entries.map fun e => e.completion.map Instant.seconds) =
          [[some 60, none], []] ∧
        u.asked = [.at (.delegations "a" []) 12, .at (.delegations "a" [1]) 12,
          .at (.unbonding "a" []) 12, .at (.unbonding "a" [9]) 12] := by
  intro c q s
  have delegated :
      Chained c.searchLimit (c.node.delegations q) DelegationPage.mark [] s.node _ () :=
    .more rfl (by decide) nofun (.last rfl (by decide) rfl)
  have unbonding : Chained c.searchLimit (c.node.unbonding q) UnbondingPage.mark [] () _ () :=
    .more rfl (by decide) nofun (.last rfl (by decide) rfl)
  refine ⟨_, _, delegated, unbonding, rfl, rfl, ?_⟩
  obtain ⟨r, u, hr, -, -, ok⟩ := getDelegations_of_chained c q delegated unbonding
  have htwo := hr 2 (Nat.le_refl 2) (Nat.le_refl 2)
  obtain ⟨d, v, hd, hdelegated, hunbonding⟩ : ∃ d v, c.getDelegations 2 q s = (some (.ok d), v) ∧
      d.delegated = [
        ⟨"d", "v", ⟨"2000000000000000000", 2000000000000000000, 18, ""⟩, ⟨"2", 2, 0, "uatom"⟩⟩,
        ⟨"d", "w", ⟨"7", 7, 18, ""⟩, ⟨"0", 0, 0, ""⟩⟩] ∧
      d.unbonding.map (fun b => b.entries.map fun e => e.completion.map Instant.seconds) =
        [[some 60, none], []] := ⟨_, _, rfl, rfl, rfl⟩
  obtain ⟨rfl, rfl⟩ : r = .ok d ∧ u = v := by
    rw [htwo] at hd
    simpa using hd
  obtain ⟨hasked, hheight, -⟩ := ok d rfl
  exact ⟨d, u, fun limit hl => hr limit hl hl, hheight, hdelegated, hunbonding, hasked⟩

/-- A share of 1.5 has one place and not 18. -/
theorem getDelegations_pointed :
    let c := holder "1.5"
    let q : AccountQuery := ⟨12, "a"⟩
    let s : Session Unit := ⟨(), .empty 1, ⟨none, []⟩, []⟩
    ∃ ps us, Chained c.searchLimit (c.node.delegations q) DelegationPage.mark [] s.node ps () ∧
      Chained c.searchLimit (c.node.unbonding q) UnbondingPage.mark [] () us () ∧
      ps.length = 2 ∧ us.length = 2 ∧
      ∃ d u, c.getDelegations 2 q s = (some (.ok d), u) ∧
        d.delegated.map Delegation.shares = [⟨"1.5", 15, 1, ""⟩, ⟨"7", 7, 18, ""⟩] ∧
        ¬∀ e ∈ d.delegated, e.shares.exp = 18 := by
  intro c q s
  refine ⟨_, _, .more rfl (by decide) nofun (.last rfl (by decide) rfl),
    .more rfl (by decide) nofun (.last rfl (by decide) rfl), rfl, rfl, _, _, rfl, rfl, ?_⟩
  exact fun h => absurd (h _ List.mem_cons_self) (by decide)

end Client

end ChainIndexer
