import ChainIndexer.Stored.Log
import ChainIndexer.Stored.Transaction
import ChainIndexer.Stored.Holdings
import ChainIndexer.Proofs.Stored.Event
import ChainIndexer.Proofs.Text.Base64
import ChainIndexer.Proofs.Time.Instant

/-
  Logs, blocks, transactions and holdings, read from any form of what was written.

  Instants are texts that read back as the instant, and byte strings are texts in base64 that read
  back as the byte string; the other bounds are those of the fields' widths.
-/

namespace ChainIndexer

open Json

/-! ## Widths -/

/-- The number of the message fits. -/
def MessageLog.Fits (log : MessageLog) : Prop :=
  log.index ≤ Text.maxWord32

/-- The numbers of a block fit. -/
structure Block.Fits (b : Block) : Prop where
  height : b.height ≤ Text.maxWord64
  txCount : b.txCount ≤ Text.maxWord64

/-- The numbers of a transaction fit, and so do its amounts. -/
structure Transaction.Fits (t : Transaction) : Prop where
  height : t.height ≤ Text.maxWord64
  gasWanted : t.gasWanted ≤ Text.maxWord64
  gasUsed : t.gasUsed ≤ Text.maxWord64
  fee : ∀ a ∈ t.fee, a.Fits
  events : ∀ e ∈ t.events, e.Fits

/-- The height of rewards fits, and so do the amounts. -/
structure Rewards.Fits (r : Rewards) : Prop where
  height : r.height ≤ Text.maxWord64
  byValidator : ∀ x ∈ r.byValidator.entries, ∀ a ∈ x.2, a.Fits

/-- The height of balances fits, and so do the amounts. -/
structure Balances.Fits (b : Balances) : Prop where
  height : b.height ≤ Text.maxWord64
  amounts : ∀ a ∈ b.amounts, a.Fits

/-- Both amounts of a delegation fit. -/
structure Delegation.Fits (d : Delegation) : Prop where
  shares : d.shares.Fits
  balance : d.balance.Fits

/-- The height of an entry has 64 bits with its sign, and the amounts fit. -/
structure UnbondingEntry.Fits (e : UnbondingEntry) : Prop where
  creationHeight :
    -(Text.maxSigned64 : Int) - 1 ≤ e.creationHeight ∧ e.creationHeight ≤ Text.maxSigned64
  initialBalance : e.initialBalance.Fits
  balance : e.balance.Fits

/-- The height of delegations fits, and so does all that they hold. -/
structure Delegations.Fits (d : Delegations) : Prop where
  height : d.height ≤ Text.maxWord64
  delegated : ∀ x ∈ d.delegated, x.Fits
  unbonding : ∀ u ∈ d.unbonding, ∀ e ∈ u.entries, e.Fits

variable {form : Json → Json} (h : Form form)
include h

/-! ## Instants and byte strings -/

theorem Instant.ofJson_form (t : Instant) : Instant.ofJson (form t.toJson) = .ok t := by
  refine Outcome.bind_eq_ok.2 ⟨t.text, h.readText t.text, ?_⟩
  rw [Instant.read?_text]
  rfl

theorem Json.Form.readBase64Text (bs : Text.Bytes) :
    ChainIndexer.readBase64Text (form (.text (Text.base64 bs))) = .ok bs := by
  refine Outcome.bind_eq_ok.2 ⟨Text.base64 bs, h.readText (Text.base64 bs), ?_⟩
  rw [Text.readBase64?_base64]
  rfl

/-! ## Logs -/

theorem LogAttribute.ofJson_form (a : LogAttribute) :
    LogAttribute.ofJson (form a.toJson) = .ok a := by
  obtain ⟨key, value⟩ := a
  unfold LogAttribute.ofJson LogAttribute.toJson
  refine h.readRecord fun gs shows => .seq (.map ?_ LogAttribute.mk) ?_
  · exact gives_required shows (by simp) (h.readText key)
  · exact gives_required shows (by simp) (h.readText value)

theorem LogEvent.ofJson_form (e : LogEvent) : LogEvent.ofJson (form e.toJson) = .ok e := by
  obtain ⟨kind, attributes⟩ := e
  unfold LogEvent.ofJson LogEvent.toJson
  refine h.readRecord fun gs shows => .seq (.map ?_ LogEvent.mk) ?_
  · exact gives_required shows (by simp) (h.readText kind)
  · exact gives_required shows (by simp [listJson])
      (h.readList fun a _ => LogAttribute.ofJson_form h a)

theorem MessageLog.ofJson_form {log : MessageLog} (fits : log.Fits) :
    MessageLog.ofJson (form log.toJson) = .ok log := by
  obtain ⟨index, text, events⟩ := log
  unfold MessageLog.ofJson MessageLog.toJson
  refine h.readRecord fun gs shows => .seq (.seq (.map ?_ MessageLog.mk) ?_) ?_
  · exact gives_required shows (by simp) (h.readNat32 fits)
  · exact gives_textField shows h (by simp)
  · exact gives_required shows (by simp [listJson])
      (h.readList fun e _ => LogEvent.ofJson_form h e)

/-! ## Blocks and transactions -/

theorem Block.ofJson_form {b : Block} (fits : b.Fits) : Block.ofJson (form b.toJson) = .ok b := by
  obtain ⟨hash, height, time, chainId, txCount⟩ := b
  unfold Block.ofJson Block.toJson
  refine h.readRecord fun gs shows => .seq (.seq (.seq (.seq (.map ?_ Block.mk) ?_) ?_) ?_) ?_
  · exact gives_required shows (by simp) (h.readText hash)
  · exact gives_required shows (by simp) (h.readNat64 fits.height)
  · exact gives_required shows (by simp) (Instant.ofJson_form h time)
  · exact gives_required shows (by simp) (h.readText chainId)
  · exact gives_required shows (by simp) (h.readNat64 fits.txCount)

theorem Transaction.ofJson_form {t : Transaction} (fits : t.Fits) :
    Transaction.ofJson (form t.toJson) = .ok t := by
  obtain ⟨height, hash, blockHash, chainId, time, gasWanted, gasUsed, fee, memo, raw, rawLog,
    events⟩ := t
  unfold Transaction.ofJson Transaction.toJson
  refine h.readRecord fun gs shows => .seq (.seq (.seq (.seq (.seq (.seq (.seq (.seq (.seq (.seq
    (.seq (.map ?_ Transaction.mk) ?_) ?_) ?_) ?_) ?_) ?_) ?_) ?_) ?_) ?_) ?_
  · exact gives_required shows (by simp) (h.readNat64 fits.height)
  · exact gives_required shows (by simp) (h.readText hash)
  · exact gives_required shows (by simp) (h.readText blockHash)
  · exact gives_required shows (by simp) (h.readText chainId)
  · exact gives_required shows (by simp) (Instant.ofJson_form h time)
  · exact gives_required shows (by simp) (h.readNat64 fits.gasWanted)
  · exact gives_required shows (by simp) (h.readNat64 fits.gasUsed)
  · exact gives_required shows (by simp [listJson])
      (h.readList fun a ha => Amount.ofJson_form h (fits.fee a ha))
  · exact gives_required shows (by simp) (h.readText memo)
  · exact gives_required shows (by simp) (h.readBase64Text raw)
  · exact gives_required shows (by simp) (h.readBase64Text rawLog)
  · exact gives_required shows (by simp [listJson])
      (h.readList fun e he => TransactionEvent.ofJson_form h (fits.events e he))

/-! ## Holdings -/

theorem Rewards.ofJson_form {r : Rewards} (fits : r.Fits) :
    Rewards.ofJson (form r.toJson) = .ok r := by
  obtain ⟨height, byValidator⟩ := r
  unfold Rewards.ofJson Rewards.toJson
  refine h.readRecord fun gs shows => .seq (.map ?_ Rewards.mk) ?_
  · exact gives_required shows (by simp) (h.readNat64 fits.height)
  · exact gives_required shows (by simp) (h.readKeyed fun x hx =>
      h.readList fun a ha => Amount.ofJson_form h (fits.byValidator x hx a ha))

theorem Balances.ofJson_form {b : Balances} (fits : b.Fits) :
    Balances.ofJson (form b.toJson) = .ok b := by
  obtain ⟨height, amounts⟩ := b
  unfold Balances.ofJson Balances.toJson
  refine h.readRecord fun gs shows => .seq (.map ?_ Balances.mk) ?_
  · exact gives_required shows (by simp) (h.readNat64 fits.height)
  · exact gives_required shows (by simp)
      (h.readList fun a ha => Amount.ofJson_form h (fits.amounts a ha))

theorem Delegation.ofJson_form {d : Delegation} (fits : d.Fits) :
    Delegation.ofJson (form d.toJson) = .ok d := by
  obtain ⟨delegator, validator, shares, balance⟩ := d
  unfold Delegation.ofJson Delegation.toJson
  refine h.readRecord fun gs shown => .seq (.seq (.seq (.map ?_ Delegation.mk) ?_) ?_) ?_
  · exact gives_required shown (by simp) (h.readText delegator)
  · exact gives_required shown (by simp) (h.readText validator)
  · exact gives_required shown (by simp) (Amount.ofJson_form h fits.shares)
  · exact gives_required shown (by simp) (Amount.ofJson_form h fits.balance)

theorem UnbondingEntry.ofJson_form {e : UnbondingEntry} (fits : e.Fits) :
    UnbondingEntry.ofJson (form e.toJson) = .ok e := by
  obtain ⟨creationHeight, completion, initialBalance, balance⟩ := e
  unfold UnbondingEntry.ofJson UnbondingEntry.toJson
  refine h.readRecord fun gs shows => .seq (.seq (.seq (.map ?_ UnbondingEntry.mk) ?_) ?_) ?_
  · exact gives_required shows (by simp) (h.readInt64 fits.creationHeight)
  · exact gives_orNull shows h (by simp) (fun t _ => Instant.ofJson_form h t) fun t _ => h.text_ne _
  · exact gives_required shows (by simp) (Amount.ofJson_form h fits.initialBalance)
  · exact gives_required shows (by simp) (Amount.ofJson_form h fits.balance)

theorem Unbonding.ofJson_form {u : Unbonding} (fits : ∀ e ∈ u.entries, e.Fits) :
    Unbonding.ofJson (form u.toJson) = .ok u := by
  obtain ⟨delegator, validator, entries⟩ := u
  unfold Unbonding.ofJson Unbonding.toJson
  refine h.readRecord fun gs shows => .seq (.seq (.map ?_ Unbonding.mk) ?_) ?_
  · exact gives_required shows (by simp) (h.readText delegator)
  · exact gives_required shows (by simp) (h.readText validator)
  · exact gives_required shows (by simp)
      (h.readList fun e he => UnbondingEntry.ofJson_form h (fits e he))

theorem Delegations.ofJson_form {d : Delegations} (fits : d.Fits) :
    Delegations.ofJson (form d.toJson) = .ok d := by
  obtain ⟨height, delegated, unbonding⟩ := d
  unfold Delegations.ofJson Delegations.toJson
  refine h.readRecord fun gs shows => .seq (.seq (.map ?_ Delegations.mk) ?_) ?_
  · exact gives_required shows (by simp) (h.readNat64 fits.height)
  · exact gives_required shows (by simp)
      (h.readList fun x hx => Delegation.ofJson_form h (fits.delegated x hx))
  · exact gives_required shows (by simp)
      (h.readList fun u hu => Unbonding.ofJson_form h (fits.unbonding u hu))

end ChainIndexer
