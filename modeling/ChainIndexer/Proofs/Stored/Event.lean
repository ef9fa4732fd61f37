import ChainIndexer.Proofs.Json.Records
import ChainIndexer.Proofs.Text.Numeral

/-
  Amounts and events, read from any form of what was written.

  `Fits` says of a value that its numbers of a fixed width are within it; integers of any size are
  texts and need no bound. What is left out when empty is read as empty.
-/

namespace ChainIndexer

open Json

/-! ## Widths -/

/-- The exponent of an amount has 32 bits. -/
def Amount.Fits (a : Amount) : Prop :=
  -(Text.maxSigned32 : Int) - 1 ≤ a.exp ∧ a.exp ≤ Text.maxSigned32

/-- The amounts of a transfer fit. -/
def Transfer.Fits (t : Transfer) : Prop :=
  ∀ a ∈ t.amounts, a.Fits

/-- The amounts of an event fit, wherever they stand. -/
structure Event.Fits (e : Event) : Prop where
  senders : ∀ t ∈ e.senders, t.Fits
  recipients : ∀ t ∈ e.recipients, t.Fits
  amounts : ∀ x ∈ e.amounts.entries, x.2.Fits
  transfers : ∀ x ∈ e.transfers.entries, ∀ t ∈ x.2, t.Fits

/-- The parts of an event of a transaction fit. -/
def TransactionEvent.Fits (e : TransactionEvent) : Prop :=
  ∀ s ∈ e.sub, s.Fits

variable {form : Json → Json} (h : Form form)
include h

/-! ## Amounts -/

theorem Json.Form.readBigInteger (z : Int) :
    ChainIndexer.readBigInteger (form (.text (Text.integerText z))) = .ok z := by
  refine Outcome.bind_eq_ok.2 ⟨Text.integerText z, h.readText _, ?_⟩
  rw [Text.readInteger_integerText]
  rfl

theorem Json.Form.readTexts (ss : List String) :
    Json.readList Json.readText (form (Json.texts ss)) = .ok ss :=
  h.readList fun s _ => h.readText s

theorem Amount.ofJson_form {a : Amount} (fits : a.Fits) :
    Amount.ofJson (form a.toJson) = .ok a := by
  obtain ⟨text, numeric, exp, currency⟩ := a
  unfold Amount.ofJson Amount.toJson
  refine h.readRecord fun gs shows => .seq (.seq (.seq (.map ?_ Amount.mk) ?_) ?_) ?_
  · exact gives_required shows (by simp) (h.readText text)
  · exact gives_required shows (by simp) (h.readBigInteger numeric)
  · exact gives_required shows (by simp) (h.readInt32 fits)
  · exact gives_textField shows h (by simp)

/-! ## Accounts -/

theorem AccountDetails.ofJson_form (d : AccountDetails) :
    AccountDetails.ofJson (form d.toJson) = .ok d := by
  unfold AccountDetails.ofJson AccountDetails.toJson
  refine h.readRecord fun gs shows => .seq (.seq (.seq (.map ?_ AccountDetails.mk) ?_) ?_) ?_
  all_goals exact gives_textField shows h (by simp)

theorem Account.ofJson_form (a : Account) : Account.ofJson (form a.toJson) = .ok a := by
  obtain ⟨id, details⟩ := a
  unfold Account.ofJson Account.toJson
  refine h.readRecord fun gs shows => .seq (.map ?_ Account.mk) ?_
  · exact gives_required shows (by simp) (h.readText id)
  · exact gives_optionField shows (by simp) (fun d _ => AccountDetails.ofJson_form h d)
      fun d _ => h.object_ne _

theorem Transfer.ofJson_form {t : Transfer} (fits : t.Fits) :
    Transfer.ofJson (form t.toJson) = .ok t := by
  obtain ⟨account, amounts⟩ := t
  unfold Transfer.ofJson Transfer.toJson
  refine h.readRecord fun gs shows => .seq (.map ?_ Transfer.mk) ?_
  · exact gives_required shows (by simp) (Account.ofJson_form h account)
  · exact gives_listField shows h (by simp) fun a ha => Amount.ofJson_form h (fits a ha)

/-! ## Events -/

theorem readFailure_form (reason : String) :
    readFailure (form (failureJson reason)) = .ok reason := by
  unfold readFailure failureJson
  refine h.readRecord fun gs shows => ?_
  exact gives_required shows (by simp) (h.readText reason)

theorem Event.ofJson_form {e : Event} (fits : e.Fits) : Event.ofJson (form e.toJson) = .ok e := by
  obtain ⟨kinds, moduleName, senders, recipients, nodes, amounts, transfers, additional,
    failure⟩ := e
  unfold Event.ofJson Event.toJson
  refine h.readRecord fun gs shows => .seq (.seq (.seq (.seq (.seq (.seq (.seq (.seq
    (.map ?_ Event.mk) ?_) ?_) ?_) ?_) ?_) ?_) ?_) ?_
  · exact gives_required shows (by simp) (h.readTexts kinds)
  · exact gives_required shows (by simp) (h.readText moduleName)
  · exact gives_listField shows h (by simp) fun t ht => Transfer.ofJson_form h (fits.senders t ht)
  · exact gives_listField shows h (by simp) fun t ht =>
      Transfer.ofJson_form h (fits.recipients t ht)
  · exact gives_namesField shows h (by simp) fun x _ =>
      h.readList fun a _ => Account.ofJson_form h a
  · exact gives_namesField shows h (by simp) fun x hx => Amount.ofJson_form h (fits.amounts x hx)
  · exact gives_namesField shows h (by simp) fun x hx =>
      h.readList fun t ht => Transfer.ofJson_form h (fits.transfers x hx t ht)
  · exact gives_namesField shows h (by simp) fun x _ => h.readTexts x.2
  · exact gives_optionField shows (by simp) (fun r _ => readFailure_form h r)
      fun r _ => h.object_ne _

theorem TransactionEvent.ofJson_form {e : TransactionEvent} (fits : e.Fits) :
    TransactionEvent.ofJson (form e.toJson) = .ok e := by
  obtain ⟨id, kind, sub⟩ := e
  unfold TransactionEvent.ofJson TransactionEvent.toJson
  refine h.readRecord fun gs shows => .seq (.seq (.map ?_ TransactionEvent.mk) ?_) ?_
  · exact gives_required shows (by simp) (h.readText id)
  · exact gives_required shows (by simp) (h.readText kind)
  · exact gives_listField shows h (by simp) fun s hs => Event.ofJson_form h (fits s hs)

end ChainIndexer
