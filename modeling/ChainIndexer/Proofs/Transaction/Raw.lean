import ChainIndexer.Proofs.Transaction.Refusals
import ChainIndexer.Proofs.Wire.RoundTrip

/-
  The bytes that are kept of a transaction.

  A transaction keeps the bytes of its envelope as they are written anew: unknown fields are gone,
  and the rest may stand in another order and in another form. But they are read as the envelope
  that was decoded, with every message, signer and signature (`read_raw_of_decode`).
-/

namespace ChainIndexer.Transaction

open Outcome Text

variable {pool : String} {e : Envelope} {r : Receipt} {block : Block} {s : DecodeStats}
  {t : Transaction}

/-- What a transaction keeps of its envelope and of its log. -/
theorem kept_of_header (h : header e r block = .ok t) :
    t.raw = e.bytes ∧ t.rawLog = keptLog r := by
  unfold header at h
  obtain ⟨height, -, h⟩ := bind_eq_ok.1 h
  obtain ⟨gasWanted, -, h⟩ := bind_eq_ok.1 h
  obtain ⟨gasUsed, -, h⟩ := bind_eq_ok.1 h
  obtain ⟨fee, -, h⟩ := bind_eq_ok.1 h
  rw [← pure_eq_ok.1 h]
  exact ⟨rfl, rfl⟩

theorem kept_of_decode (h : (decode pool e r block s).1 = .ok t) :
    t.raw = e.bytes ∧ t.rawLog = keptLog r := by
  cases hh : header e r block with
  | error err =>
    rw [decode_of_header_error hh] at h
    cases h
  | ok t₀ =>
    rw [decode_of_header_ok hh] at h
    obtain ⟨events, -, rfl⟩ := map_eq_ok.1 h
    have hk := kept_of_header hh
    exact hk

theorem raw_of_decode (h : (decode pool e r block s).1 = .ok t) : t.raw = e.bytes :=
  (kept_of_decode h).1

theorem rawLog_of_decode (h : (decode pool e r block s).1 = .ok t) : t.rawLog = keptLog r :=
  (kept_of_decode h).2

/-- The bytes that are kept of a transaction are read as the envelope that it was decoded from. A
byte string in memory has less than `2 ^ 63` bytes. -/
theorem read_raw_of_decode {bs : Bytes} (fits : bs.length < 2 ^ 63)
    (read : Envelope.read bs = .ok e) (decoded : (decode pool e r block s).1 = .ok t) :
    Envelope.read t.raw = .ok e := by
  obtain ⟨record, hr, rfl⟩ := map_eq_ok.1 read
  rw [raw_of_decode decoded]
  unfold Envelope.read Envelope.bytes
  rw [Wire.decode_encode_of_decode fits hr]
  rfl

/-- An envelope with a message, a memo, a signer in whose mode another one is nested, a signature
and a field that is not known. The mode is negative, and in a form that is never written. -/
def nestedSigner : Bytes :=
  Wire.encode [.message 2 [.message 1 [.message 2 [.message 2 [.message 2 [.message 1
      [.word 1 0xFFFFFFFF]]]], .word 3 9]],
    .message 1 [.text 2 "memo", .message 1 [.text 1 "/cosmos.bank.v1beta1.MsgSend",
      .bytes 2 [10, 1, 97]]],
    .word 99 7, .bytes 3 [1, 2]]

/-- The receipt of the envelope. -/
def plainReceipt : Receipt :=
  ⟨7, "TX7", "", 0, "[]", "", 200000, 150000, [], [], none⟩

/-- The block of the envelope. -/
def plainBlock : Block :=
  ⟨"HASH7", 7, .epoch, "cosmoshub-4", 1⟩

theorem read_raw_of_decode_nestedSigner : nestedSigner.length < 2 ^ 63 ∧
    ∃ e t, Envelope.read nestedSigner = .ok e ∧
      (decode "pool" e plainReceipt plainBlock .zero).1 = .ok t ∧ t.raw ≠ nestedSigner ∧
      Envelope.read t.raw = .ok e := by
  have hl : nestedSigner.length < 2 ^ 63 := by decide +kernel
  have hd : (match Envelope.read nestedSigner with
      | .ok e => match (decode "pool" e plainReceipt plainBlock .zero).1 with
        | .ok t => decide (t.raw ≠ nestedSigner)
        | .error _ => false
      | .error _ => false) = true := by
    decide +kernel
  refine ⟨hl, ?_⟩
  cases he : Envelope.read nestedSigner with
  | error fault => simp [he] at hd
  | ok e =>
    cases ht : (decode "pool" e plainReceipt plainBlock .zero).1 with
    | error err => simp [he, ht] at hd
    | ok t =>
      have hn : t.raw ≠ nestedSigner := by simpa [he, ht] using hd
      exact ⟨e, t, rfl, ht, hn, read_raw_of_decode hl he ht⟩

end ChainIndexer.Transaction
