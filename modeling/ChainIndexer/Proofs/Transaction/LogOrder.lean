import ChainIndexer.Proofs.Transaction.Decoding
import ChainIndexer.Proofs.Transaction.FlatLogs

/-
  The order of logs makes no difference.

  The log of a message is looked up in its place first and everywhere else after that, so that the
  place of a log decides which way it is found. Where no two logs declare the same index, both ways
  come to the one log that declares it (`find?_eq_some_iff`), and any order of the logs gives every
  message the same log. Indices that no log declares change nothing about this (`decode_of_perm`).
-/

namespace ChainIndexer

/-! ## Looking up logs -/

namespace MessageLog

variable {logs logs' : List MessageLog} {log : MessageLog} {index : Nat}

theorem distinct_of_perm (hp : logs.Perm logs') (hd : Distinct logs') : Distinct logs :=
  (hp.map MessageLog.index).nodup_iff.2 hd

/-- The log of a message is the one that declares its index, wherever it stands. -/
theorem find?_eq_some_iff (hd : Distinct logs) :
    find? logs index = some log ↔ log ∈ logs ∧ log.index = index := by
  rw [find?_eq_declared? hd]
  constructor
  · intro h
    exact ⟨List.mem_of_find?_eq_some h, by simpa using List.find?_some h⟩
  · rintro ⟨hm, rfl⟩
    exact declared?_of_mem hd hm

theorem find?_of_perm (hp : logs.Perm logs') (hd : Distinct logs') (index : Nat) :
    find? logs index = find? logs' index := by
  refine Option.ext fun log => ?_
  rw [find?_eq_some_iff (distinct_of_perm hp hd), find?_eq_some_iff hd, hp.mem_iff]

end MessageLog

/-! ## Logs of a receipt -/

namespace Receipt

open MessageLog

variable {r : Receipt} {logs : List MessageLog}

/-- In any order the logs of a receipt are those of its messages, unless there are none. -/
theorem messageLogs_perm (perm : logs.Perm r.logs) :
    (messageLogs { r with logs := logs }).Perm r.messageLogs := by
  unfold messageLogs
  by_cases h : r.logs = []
  · have hn : logs = [] := (h ▸ perm).eq_nil
    rw [if_pos hn, if_pos h]
  · have hn : logs ≠ [] := fun hl => h (hl ▸ perm).symm.eq_nil
    rw [if_neg hn, if_neg h]
    exact perm

theorem distinct_messageLogs (distinct : Distinct r.logs) : Distinct r.messageLogs := by
  unfold messageLogs
  split
  · exact distinct_ofFlat r.events
  · exact distinct

end Receipt

/-! ## Transactions -/

namespace Transaction

open Message MessageLog

variable {logs : List MessageLog}

theorem logOf_of_perm {logs' : List MessageLog} (hp : logs.Perm logs') (hd : Distinct logs')
    (index : Nat) : logOf logs index = logOf logs' index := by
  unfold logOf
  rw [find?_of_perm hp hd]

theorem logOf_of_mem (hd : Distinct logs) {log : MessageLog} (h : log ∈ logs) :
    logOf logs log.index = log := by
  unfold logOf
  rw [(find?_eq_some_iff hd).2 ⟨h, rfl⟩]
  rfl

theorem logOf_of_undeclared (hd : Distinct logs) {index : Nat}
    (h : ∀ log ∈ logs, log.index ≠ index) : logOf logs index = .empty := by
  unfold logOf
  cases hf : find? logs index with
  | none => rfl
  | some log =>
    obtain ⟨hm, hi⟩ := (find?_eq_some_iff hd).1 hf
    exact absurd hi (h log hm)

/-- Of a receipt with a log of its own whose logs declare distinct indices, any order of these logs
gives the same transaction or the same error. The event of a message is that of the log which
declares its index, or of a log without events if none does. -/
theorem decode_of_perm (pool : String) (e : Envelope) (r : Receipt) (block : Block)
    (s : DecodeStats) {logs : List MessageLog} (perm : logs.Perm r.logs)
    (distinct : Distinct r.logs) (raw : r.rawLog ≠ "") :
    decode pool e { r with logs := logs } block s = decode pool e r block s ∧
      (r.logs ≠ [] → ∀ t, (decode pool e r block s).1 = .ok t →
        ∀ i m, e.messages[i]? = some m →
          (∀ log ∈ r.logs, log.index = i → t.events[i]? = eventFor? pool log i m) ∧
          ((∀ log ∈ r.logs, log.index ≠ i) → t.events[i]? = eventFor? pool .empty i m)) := by
  constructor
  · have hl := logOf_of_perm (Receipt.messageLogs_perm perm)
      (Receipt.distinct_messageLogs distinct)
    unfold decode
    rw [header_congr raw logs r.events]
    simp only [routeMessages_congr fun i => congrArg MessageLog.events (hl i)]
    rfl
  · intro present t ht i m hm
    have hl : r.messageLogs = r.logs := if_neg present
    have he := getElem?_events ht (List.getElem?_eq_some_iff.1 hm).1
    rw [hm, Option.bind_some, hl] at he
    constructor
    · rintro log hlog rfl
      rw [he, logOf_of_mem distinct hlog]
    · intro hnone
      rw [he, logOf_of_undeclared distinct hnone]

/-- Logs of the first and of the third message; the second one has none. -/
def sparseLogs : List MessageLog :=
  [⟨0, "", [transferTo "a" "1uatom"]⟩, ⟨2, "", [transferTo "b" "2uatom"]⟩]

/-- Turned around, the log of the first message is no longer in its place. -/
theorem decode_of_perm_sparse :
    let r := { loggedReceipt with logs := sparseLogs }
    let turned := sparseLogs.reverse
    turned.Perm r.logs ∧ Distinct r.logs ∧ r.rawLog ≠ "" ∧ turned[0]? ≠ find? turned 0 ∧
      decode "pool" twoSends { r with logs := turned } seventhBlock .zero =
        decode "pool" twoSends r seventhBlock .zero ∧
      ∃ t m, (decode "pool" twoSends r seventhBlock .zero).1 = .ok t ∧
        twoSends.messages[1]? = some m ∧ t.events[1]? = eventFor? "pool" .empty 1 m := by
  have hp : sparseLogs.reverse.Perm sparseLogs := List.reverse_perm sparseLogs
  have hd : Distinct sparseLogs := by
    unfold Distinct
    decide
  have hr : loggedReceipt.rawLog ≠ "" := by decide
  have hn : sparseLogs ≠ [] := by decide
  obtain ⟨hsame, hevents⟩ := decode_of_perm "pool" twoSends
    { loggedReceipt with logs := sparseLogs } seventhBlock .zero hp hd hr
  exact ⟨hp, hd, hr, by decide, hsame, _, _, rfl, rfl, (hevents hn _ rfl 1 _ rfl).2 (by decide)⟩

end Transaction

end ChainIndexer
