import ChainIndexer.Proofs.Log.Flattening
import ChainIndexer.Proofs.Transaction.Refusals

/-
  Transactions of nodes that fill in logs, and of nodes that emit flat events.

  A message is mapped with the events of its log and nothing else of it (`classify_congr`), so two
  receipts that give every message the same events give the same transaction. Flat events do so for
  the logs that they stand for (`decode_of_flattened`).
-/

namespace ChainIndexer.Transaction

open Message MessageLog

/-! ## What a log has a say in -/

variable {pool : String} {log log' : MessageLog}

theorem reconcile_congr (h : log.events = log'.events) (excluded : List String) :
    Settlement.reconcile log excluded = Settlement.reconcile log' excluded := by
  unfold Settlement.reconcile Settlement.attributed eventsOf
  rw [h]

theorem attach_congr (h : log.events = log'.events) (kind : MessageKind) (e : Event) :
    attach kind ⟨log, pool⟩ e = attach kind ⟨log', pool⟩ e := by
  unfold attach
  simp only [reconcile_congr h]

theorem map_congr (h : log.events = log'.events) (kind : MessageKind) (payload : Text.Bytes) :
    map kind payload ⟨log, pool⟩ = map kind payload ⟨log', pool⟩ := by
  unfold map
  simp only [attach_congr h]

/-- What becomes of a message depends on nothing of its log but the events. -/
theorem classify_congr (h : log.events = log'.events) (typeUrl : String) (payload : Text.Bytes) :
    classify typeUrl payload ⟨log, pool⟩ = classify typeUrl payload ⟨log', pool⟩ := by
  unfold classify
  simp only [map_congr h]

/-! ## Logs that give the same events -/

variable {logs logs' : List MessageLog}

theorem routeMessages_congr (h : ∀ i, (logOf logs i).events = (logOf logs' i).events) (index : Nat)
    (ms : List Packed) (s : DecodeStats) :
    routeMessages pool logs index ms s = routeMessages pool logs' index ms s := by
  induction ms generalizing index s with
  | nil => rfl
  | cons m ms ih =>
    unfold routeMessages route
    rw [classify_congr (h index)]
    simp only [ih]

theorem events_logOf (hd : Distinct logs) (index : Nat) :
    (logOf logs index).events = eventsAt logs index := by
  unfold logOf eventsAt
  rw [find?_eq_declared? hd]
  cases declared? logs index with
  | none => rfl
  | some log => rfl

variable {e : Envelope} {r r' : Receipt} {block : Block} {s : DecodeStats}

/-- A receipt with a log of its own keeps it, whatever the logs of its messages are. -/
theorem keptLog_of_rawLog (h : r.rawLog ≠ "") : keptLog r = textBytes r.rawLog :=
  if_neg h

theorem header_congr (raw : r.rawLog ≠ "") (logs : List MessageLog) (events : List LogEvent) :
    header e { r with logs := logs, events := events } block = header e r block := by
  have hk : keptLog { r with logs := logs, events := events } = keptLog r :=
    (keptLog_of_rawLog (r := { r with logs := logs, events := events }) raw).trans
      (keptLog_of_rawLog raw).symm
  unfold header
  rw [hk]

/-- Logs, and flat events that stand for them, give the same transaction or the same error. -/
theorem decode_of_flattened (pool : String) (e : Envelope) (r : Receipt) (block : Block)
    (s : DecodeStats) {logs : List MessageLog} {flat : List LogEvent} (present : logs ≠ [])
    (indexed : Indexed logs) (distinct : Distinct logs) (unnamed : Unnamed logs)
    (flattened : Flattened logs flat) (raw : r.rawLog ≠ "") :
    decode pool e { r with logs := logs } block s =
      decode pool e { r with logs := [], events := flat } block s := by
  have hl : Receipt.messageLogs { r with logs := logs } = logs := if_neg present
  have hf : Receipt.messageLogs { r with logs := [], events := flat } = ofFlat flat := if_pos rfl
  have he : ∀ i, (logOf logs i).events = (logOf (ofFlat flat) i).events := by
    intro i
    rw [events_logOf distinct, events_logOf (distinct_ofFlat flat),
      eventsAt_ofFlat_of_flattened flattened distinct indexed unnamed]
  unfold decode
  rw [header_congr raw logs r.events, header_congr raw [] flat, hl, hf]
  simp only [routeMessages_congr he]
  rfl

/-- A transfer to an account. -/
def transferTo (account amount : String) : LogEvent :=
  ⟨"transfer", [⟨"recipient", account⟩, ⟨"amount", amount⟩]⟩

/-- The logs of two messages, the second one first. -/
def twoLogs : List MessageLog :=
  [⟨1, "", [transferTo "b" "2uatom", transferTo "c" "3uatom"]⟩, ⟨0, "", [transferTo "a" "1uatom"]⟩]

/-- The same events between others, with the index in front, in the middle and at the end. -/
def twoLogsFlat : List LogEvent :=
  [⟨"tx", [⟨"fee", "5uatom"⟩]⟩,
    ⟨"transfer", [⟨"msg_index", "1"⟩, ⟨"recipient", "b"⟩, ⟨"amount", "2uatom"⟩]⟩,
    ⟨"transfer", [⟨"recipient", "a"⟩, ⟨"msg_index", "0"⟩, ⟨"amount", "1uatom"⟩]⟩,
    ⟨"coin_spent", [⟨"msg_index", "none"⟩]⟩,
    ⟨"transfer", [⟨"recipient", "c"⟩, ⟨"amount", "3uatom"⟩, ⟨"msg_index", "1"⟩]⟩]

/-- An envelope of two sends. -/
def twoSends : Envelope :=
  let send (recipient : String) : Packed :=
    ⟨"/cosmos.bank.v1beta1.MsgSend", Wire.encode [.text 1 "sender", .text 2 recipient]⟩
  ⟨[.message 1 [.message 1 (send "a").toRecord, .message 1 (send "b").toRecord]]⟩

/-- A receipt with a log of its own. -/
def loggedReceipt : Receipt :=
  ⟨7, "TX7", "", 0, "[]", "", 200000, 150000, [], [], none⟩

/-- The block of the receipt. -/
def seventhBlock : Block :=
  ⟨"HASH7", 7, .epoch, "cosmoshub-4", 1⟩

theorem decode_of_flattened_twoLogs :
    twoLogs ≠ [] ∧ Indexed twoLogs ∧ Distinct twoLogs ∧ Unnamed twoLogs ∧
      Flattened twoLogs twoLogsFlat ∧ loggedReceipt.rawLog ≠ "" ∧
      decode "pool" twoSends { loggedReceipt with logs := twoLogs } seventhBlock .zero =
        decode "pool" twoSends { loggedReceipt with logs := [], events := twoLogsFlat }
          seventhBlock .zero := by
  have hp : twoLogs ≠ [] := by decide
  have hi : Indexed twoLogs := by
    unfold Indexed
    decide
  have hd : Distinct twoLogs := by
    unfold Distinct
    decide
  have hu : Unnamed twoLogs := by
    unfold Unnamed
    decide
  have hf : Flattened twoLogs twoLogsFlat := by
    refine .other rfl (.next (k := 0) rfl rfl ⟨rfl, [], _, rfl, rfl⟩ ?_)
    refine .next (k := 1) rfl rfl ⟨rfl, [_], [_], rfl, rfl⟩ (.other rfl ?_)
    refine .next (k := 0) rfl rfl ⟨rfl, [_, _], [], rfl, rfl⟩ (.done ?_)
    decide
  have hr : loggedReceipt.rawLog ≠ "" := by decide
  exact ⟨hp, hi, hd, hu, hf, hr,
    decode_of_flattened "pool" twoSends loggedReceipt seventhBlock .zero hp hi hd hu hf hr⟩

end ChainIndexer.Transaction
