import ChainIndexer.Proofs.Outcome
import ChainIndexer.Transaction

/-
  Which transactions are refused.

  `firstRefusal?` is the first thing wrong with an envelope and its receipt, in the order in which
  they are read. A transaction is refused for it and for nothing else (`fault?_decode`): a message
  that is not known, or that its kind cannot read, is no reason, and neither is anything that was
  counted before (`decode_counted`).
-/

namespace ChainIndexer.Transaction

open Outcome Message Text

/-! ## What is wrong -/

/-- What is wrong with a number that has to be without sign. -/
def negative? (z : Int) : Option Error :=
  if z < 0 then some (.narrowing .tooSmall) else none

/-- What is wrong with a coin. -/
def coinFault? (c : Coin) : Option Error :=
  (fault? (Amount.ofCoin c.amount c.denom)).map .ofAmount

/-- What is wrong with the type URL of a message. -/
def urlFault? (m : Packed) : Option Error :=
  match TypeUrl.route? m.typeUrl with
  | some _ => none
  | none => some (.typeUrl m.typeUrl)

/-- The first thing that is wrong with a transaction. -/
def firstRefusal? (e : Envelope) (r : Receipt) : Option Error :=
  (negative? r.height).or ((negative? r.gasWanted).or ((negative? r.gasUsed).or
    ((e.feeCoins.findSome? coinFault?).or (e.messages.findSome? urlFault?))))

/-- Nothing is wrong with a transaction. -/
structure Acceptable (e : Envelope) (r : Receipt) : Prop where
  height : 0 ≤ r.height
  gasWanted : 0 ≤ r.gasWanted
  gasUsed : 0 ≤ r.gasUsed
  fee : ∀ c ∈ e.feeCoins, ∃ a, Amount.ofCoin c.amount c.denom = .ok a
  urls : ∀ m ∈ e.messages, ∃ route, TypeUrl.route? m.typeUrl = some route

theorem negative?_eq_none_iff {z : Int} : negative? z = none ↔ 0 ≤ z := by
  unfold negative?
  split
  · simp; omega
  · simp; omega

theorem coinFault?_eq_none_iff {c : Coin} :
    coinFault? c = none ↔ ∃ a, Amount.ofCoin c.amount c.denom = .ok a := by
  unfold coinFault?
  rw [Option.map_eq_none_iff, exists_ok_iff]

theorem urlFault?_eq_none_iff {m : Packed} :
    urlFault? m = none ↔ ∃ route, TypeUrl.route? m.typeUrl = some route := by
  unfold urlFault?
  cases TypeUrl.route? m.typeUrl with
  | none => simp
  | some route => simp

theorem firstRefusal?_eq_none_iff {e : Envelope} {r : Receipt} :
    firstRefusal? e r = none ↔ Acceptable e r := by
  simp only [firstRefusal?, Option.or_eq_none_iff, negative?_eq_none_iff,
    List.findSome?_eq_none_iff, coinFault?_eq_none_iff, urlFault?_eq_none_iff]
  constructor
  · rintro ⟨hh, hw, hu, hf, hm⟩
    exact ⟨hh, hw, hu, hf, hm⟩
  · rintro ⟨hh, hw, hu, hf, hm⟩
    exact ⟨hh, hw, hu, hf, hm⟩

/-! ## What is refused -/

theorem fault?_unsigned (z : Int) : fault? (unsigned z) = negative? z := by
  unfold unsigned toUnsigned negative?
  split
  · rfl
  · rfl

theorem fault?_feeAmounts (e : Envelope) :
    fault? (feeAmounts e) = e.feeCoins.findSome? coinFault? := by
  unfold feeAmounts
  rw [fault?_mapM]
  congr
  funext c
  exact fault?_mapError _ _

theorem fault?_header (e : Envelope) (r : Receipt) (block : Block) :
    fault? (header e r block) = (negative? r.height).or ((negative? r.gasWanted).or
      ((negative? r.gasUsed).or (e.feeCoins.findSome? coinFault?))) := by
  unfold header
  rw [← fault?_unsigned r.height, ← fault?_unsigned r.gasWanted, ← fault?_unsigned r.gasUsed,
    ← fault?_feeAmounts]
  refine fault?_bind fun height _ => ?_
  refine fault?_bind fun gasWanted _ => ?_
  refine fault?_bind fun gasUsed _ => ?_
  rw [fault?_bind (o := none) fun fee _ => rfl, Option.or_none]

/-- A message is refused for its type URL and for nothing else. -/
theorem fault?_classify (m : Packed) (ctx : Context) :
    fault? (classify m.typeUrl m.value ctx) = urlFault? m := by
  unfold classify TypeUrl.route urlFault?
  rw [fault?_map]
  cases TypeUrl.route? m.typeUrl with
  | none => rfl
  | some route => rfl

theorem routeMessages_cons_of_error {pool : String} {logs : List MessageLog} {index : Nat}
    {m : Packed} {e : Error}
    (h : classify m.typeUrl m.value ⟨logOf logs index, pool⟩ = .error e) (ms : List Packed)
    (s : DecodeStats) : (routeMessages pool logs index (m :: ms) s).1 = .error e := by
  simp only [routeMessages, route, h]

theorem routeMessages_cons_of_ok {pool : String} {logs : List MessageLog} {index : Nat}
    {m : Packed} {routed : Routed}
    (h : classify m.typeUrl m.value ⟨logOf logs index, pool⟩ = .ok routed) (ms : List Packed)
    (s : DecodeStats) :
    (routeMessages pool logs index (m :: ms) s).1 =
      (routeMessages pool logs (index + 1) ms (routed.count s)).1.map
        (eventOf index m.typeUrl routed :: ·) := by
  simp only [routeMessages, route, h]
  obtain ⟨res, s'⟩ := routeMessages pool logs (index + 1) ms (routed.count s)
  cases res with
  | error e => rfl
  | ok events => rfl

theorem fault?_routeMessages (pool : String) (logs : List MessageLog) (index : Nat)
    (ms : List Packed) (s : DecodeStats) :
    fault? (routeMessages pool logs index ms s).1 = ms.findSome? urlFault? := by
  induction ms generalizing index s with
  | nil => rfl
  | cons m ms ih =>
    rw [List.findSome?_cons, ← fault?_classify m ⟨logOf logs index, pool⟩]
    cases hc : classify m.typeUrl m.value ⟨logOf logs index, pool⟩ with
    | error e =>
      rw [routeMessages_cons_of_error hc]
      rfl
    | ok routed =>
      rw [routeMessages_cons_of_ok hc, fault?_map, ih]
      rfl

theorem decode_of_header_error {e : Envelope} {r : Receipt} {block : Block} {err : Error}
    (h : header e r block = .error err) (pool : String) (s : DecodeStats) :
    (decode pool e r block s).1 = .error err := by
  simp only [decode, h]

theorem decode_of_header_ok {e : Envelope} {r : Receipt} {block : Block} {t : Transaction}
    (h : header e r block = .ok t) (pool : String) (s : DecodeStats) :
    (decode pool e r block s).1 =
      (routeMessages pool r.messageLogs 0 e.messages s).1.map fun events =>
        { t with events := events ++ failureEvents r events.length } := by
  simp only [decode, h]
  obtain ⟨res, s'⟩ := routeMessages pool r.messageLogs 0 e.messages s
  cases res with
  | error e => rfl
  | ok events => rfl

/-- What has been counted before changes nothing. -/
theorem routeMessages_counted (pool : String) (logs : List MessageLog) (index : Nat)
    (ms : List Packed) (s s' : DecodeStats) :
    (routeMessages pool logs index ms s).1 = (routeMessages pool logs index ms s').1 := by
  induction ms generalizing index s s' with
  | nil => rfl
  | cons m ms ih =>
    cases hc : classify m.typeUrl m.value ⟨logOf logs index, pool⟩ with
    | error e => rw [routeMessages_cons_of_error hc, routeMessages_cons_of_error hc]
    | ok routed => rw [routeMessages_cons_of_ok hc, routeMessages_cons_of_ok hc, ih]

theorem decode_counted (pool : String) (e : Envelope) (r : Receipt) (block : Block)
    (s s' : DecodeStats) : (decode pool e r block s).1 = (decode pool e r block s').1 := by
  cases hh : header e r block with
  | error err => rw [decode_of_header_error hh, decode_of_header_error hh]
  | ok t => rw [decode_of_header_ok hh, decode_of_header_ok hh, routeMessages_counted]

/-- A transaction is refused for the first thing that is wrong with it. -/
theorem fault?_decode (pool : String) (e : Envelope) (r : Receipt) (block : Block)
    (s : DecodeStats) : fault? (decode pool e r block s).1 = firstRefusal? e r := by
  have hm := fault?_routeMessages pool r.messageLogs 0 e.messages s
  have hf : firstRefusal? e r =
      (fault? (header e r block)).or (e.messages.findSome? urlFault?) := by
    rw [fault?_header]
    simp only [firstRefusal?, Option.or_assoc]
  rw [hf, ← hm]
  cases hh : header e r block with
  | error err =>
    rw [decode_of_header_error hh]
    rfl
  | ok t =>
    rw [decode_of_header_ok hh, fault?_map]
    rfl

end ChainIndexer.Transaction
