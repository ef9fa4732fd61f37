import ChainIndexer.Proofs.Server.Lines
import ChainIndexer.Proofs.Stored.Records
import ChainIndexer.Proofs.Transaction.Decoding
import ChainIndexer.Proofs.Transaction.FlatLogs
import ChainIndexer.Proofs.Transaction.Raw

/-
  The logs that are kept of a transaction.

  A receipt without a log of its own leaves the logs of its messages behind as a document. Nothing
  is lost on the way: indices are numbers of 32 bits, also those that flat events name
  (`indexed_messageLogs`), and every text is escaped, so that the bytes are the document that was
  written (`reread_listToJson`) and tell the very logs with which the messages were mapped
  (`readLogs?_of_decode`).
-/

namespace ChainIndexer

open Json

/-! ## Indices -/

namespace MessageLog

variable {logs : List MessageLog} {f : LogEvent} {index : Nat}

theorem le_of_flatIndex? (h : flatIndex? f = some index) : index ≤ Text.maxWord32 := by
  obtain ⟨a, -, ha⟩ := Option.bind_eq_some_iff.1 h
  cases hr : Text.readWord Text.maxWord32 a.value.toList with
  | error fault =>
    rw [hr] at ha
    cases ha
  | ok n =>
    rw [hr] at ha
    cases ha
    exact Text.le_of_readWord hr

theorem indexed_iff : Indexed logs ↔ ∀ i ∈ logs.map MessageLog.index, i ≤ Text.maxWord32 := by
  rw [List.forall_mem_map]
  rfl

theorem indexed_addFlat (h : Indexed logs) (f : LogEvent) : Indexed (addFlat logs f) := by
  unfold addFlat
  cases hf : flatIndex? f with
  | none => exact h
  | some index =>
    rw [indexed_iff] at h ⊢
    rcases map_index_addEvent index (stripIndex f) logs with ⟨-, hm⟩ | ⟨-, hm⟩
    · rw [hm]
      exact h
    · rw [hm, List.forall_mem_append]
      exact ⟨h, by simpa using le_of_flatIndex? hf⟩

theorem indexed_ofFlat (flat : List LogEvent) : Indexed (ofFlat flat) :=
  List.foldlRecOn flat addFlat (motive := Indexed) nofun fun _ h f _ => indexed_addFlat h f

end MessageLog

/-- The logs of the messages have indices of 32 bits, whichever form the node gave them. -/
theorem Receipt.indexed_messageLogs {r : Receipt} (h : MessageLog.Indexed r.logs) :
    MessageLog.Indexed r.messageLogs := by
  unfold messageLogs
  split
  · exact MessageLog.indexed_ofFlat r.events
  · exact h

/-! ## Documents of logs -/

theorem LogAttribute.reread_toJson (a : LogAttribute) : a.toJson.reread = a.toJson := by
  simp [toJson, reread, rereadFields_eq_map, field]

theorem LogEvent.reread_toJson (e : LogEvent) : e.toJson.reread = e.toJson := by
  simp [toJson, reread, rereadFields_eq_map, rereadItems_eq_map, field,
    LogAttribute.reread_toJson]

theorem MessageLog.reread_toJson {log : MessageLog} (h : log.index ≤ Text.maxWord32) :
    log.toJson.reread = log.toJson := by
  have hi : (Json.nat log.index).reread = .nat log.index :=
    form_reread.nat64 (Nat.le_trans h (by decide))
  have ht : (textField "log" log.text).map (fun e => (e.1, e.2.reread)) =
      textField "log" log.text := by
    unfold textField
    split
    · rfl
    · rfl
  simp [toJson, reread, rereadFields_eq_map, rereadItems_eq_map, field, hi, ht,
    LogEvent.reread_toJson]

/-- Read again, the document of some logs is the one that was written. -/
theorem MessageLog.reread_listToJson {logs : List MessageLog} (h : Indexed logs) :
    (listToJson logs).reread = listToJson logs := by
  unfold listToJson
  rw [reread, rereadItems_eq_map, List.map_map]
  exact congrArg Json.array (List.map_congr_left fun log hm => reread_toJson (h log hm))

theorem MessageLog.readList_listToJson {logs : List MessageLog} (h : Indexed logs) :
    readList MessageLog.ofJson (listToJson logs) = .ok logs :=
  form_id.readList fun log hm => MessageLog.ofJson_form form_id (h log hm)

namespace Transaction

open MessageLog Outcome

/-- The logs that some bytes tell as a document. -/
def readLogs? (bytes : Text.Bytes) : Option (List MessageLog) :=
  (Server.documentOf? bytes).bind fun doc => (readList MessageLog.ofJson doc).toOption

variable {pool : String} {e : Envelope} {r : Receipt} {block : Block} {s : DecodeStats}
  {t : Transaction}

/-- Of a receipt without a log of its own the bytes that are kept are the document of the logs of
the messages. They tell these logs again, which are those that gave the messages their events. -/
theorem readLogs?_of_decode (indexed : Indexed r.logs) (unwritten : r.rawLog = "")
    (decoded : (decode pool e r block s).1 = .ok t) :
    Server.documentOf? t.rawLog = some (listToJson r.messageLogs) ∧
      readLogs? t.rawLog = some r.messageLogs ∧
      ∀ i m, e.messages[i]? = some m →
        t.events[i]? = eventFor? pool (logOf r.messageLogs i) i m := by
  have hi := Receipt.indexed_messageLogs indexed
  have hk : t.rawLog = textBytes (listToJson r.messageLogs).toText :=
    (rawLog_of_decode decoded).trans (if_pos unwritten)
  have hd : Server.documentOf? t.rawLog = some (listToJson r.messageLogs) := by
    rw [hk, Server.documentOf?_textBytes, reread_listToJson hi]
  refine ⟨hd, ?_, ?_⟩
  · unfold readLogs?
    rw [hd, Option.bind_some, readList_listToJson hi]
    rfl
  · intro i m hm
    rw [getElem?_events decoded (List.getElem?_eq_some_iff.1 hm).1, hm, Option.bind_some]

/-- Logs whose texts have quotes, backslashes, control characters and others outside of ASCII. -/
def quotedLogs : List MessageLog :=
  [⟨1, "", [⟨"trans\"fer\\", [⟨"reci\npient", "\u0001\u007f\u2028é𝄞"⟩, ⟨"", ""⟩]⟩]⟩,
    ⟨1, "ok\t", []⟩, ⟨4294967295, "/\u0000", [⟨"", []⟩]⟩]

/-- A receipt that holds the logs, and no log of its own. -/
def quotedReceipt : Receipt :=
  { loggedReceipt with rawLog := "", logs := quotedLogs }

/-- A receipt with flat events, and no log of its own. -/
def flatReceipt : Receipt :=
  { loggedReceipt with rawLog := "", events := twoLogsFlat }

/-- The logs are told again whether the receipt holds them or has flat events. -/
theorem readLogs?_of_decode_quoted :
    Indexed quotedReceipt.logs ∧ Indexed flatReceipt.logs ∧ quotedReceipt.rawLog = "" ∧
      flatReceipt.rawLog = "" ∧
      (∃ t, (decode "pool" twoSends quotedReceipt seventhBlock .zero).1 = .ok t ∧
        readLogs? t.rawLog = some quotedLogs) ∧
      ∃ t, (decode "pool" twoSends flatReceipt seventhBlock .zero).1 = .ok t ∧
        readLogs? t.rawLog = some (ofFlat twoLogsFlat) := by
  have hi : Indexed quotedReceipt.logs := by
    unfold Indexed
    decide
  have hn : Indexed flatReceipt.logs := nofun
  have hquoted : ∃ t, (decode "pool" twoSends quotedReceipt seventhBlock .zero).1 = .ok t := by
    rw [exists_ok_iff, fault?_decode]
    decide +kernel
  have hflat : ∃ t, (decode "pool" twoSends flatReceipt seventhBlock .zero).1 = .ok t := by
    rw [exists_ok_iff, fault?_decode]
    decide +kernel
  obtain ⟨t, ht⟩ := hquoted
  obtain ⟨u, hu⟩ := hflat
  exact ⟨hi, hn, rfl, rfl, ⟨t, ht, (readLogs?_of_decode hi rfl ht).2.1⟩,
    u, hu, (readLogs?_of_decode hn rfl hu).2.1⟩

end Transaction

end ChainIndexer
