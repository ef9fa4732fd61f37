import ChainIndexer.Proofs.Wire.Building
import ChainIndexer.Proofs.Wire.RoundTrip
import ChainIndexer.Message.Mapping

/-
  Contents, written and read.

  The fields that `toRecord` lists for a content are a canonical record of its message type
  (`canonical_toRecord`), and `ofRecord` takes from them the same content (`ofRecord_toRecord`). So
  the bytes of a content are read as this content (`read_encode`), as long as its numbers fit into
  their fields.
-/

namespace ChainIndexer.Message

open Text Wire

variable {type : MessageType} {tag depth : Nat} {name : String}

/-! ## What fits -/

/-- A time whose numbers fit into its fields. -/
def Timestamp.Fits (t : Timestamp) : Prop :=
  (-2 ^ 63 ≤ t.seconds ∧ t.seconds < 2 ^ 63) ∧ (-2 ^ 31 ≤ t.nanos ∧ t.nanos < 2 ^ 31)

/-- Evidence whose numbers fit into its fields. -/
def Equivocation.Fits (q : Equivocation) : Prop :=
  (-2 ^ 63 ≤ q.height ∧ q.height < 2 ^ 63) ∧ (-2 ^ 63 ≤ q.power ∧ q.power < 2 ^ 63) ∧
    ∀ t ∈ q.time, t.Fits

/-- A content whose numbers fit into the fields of its message. Nothing is kept of the messages
between chains, so they have no content to write. -/
def Body.Fits : Body → Prop
  | .deposit m => m.proposalId < 2 ^ 64
  | .vote m => m.proposalId < 2 ^ 64 ∧ (-2 ^ 31 ≤ m.option ∧ m.option < 2 ^ 31)
  | .createVestingAccount m => -2 ^ 63 ≤ m.endTime ∧ m.endTime < 2 ^ 63
  | .relay _ _ => False
  | _ => True

/-! ## The same content -/

theorem signed_eq (r : Record) (tag : Nat) : r.signed tag = signedWord (r.word tag) := rfl

section

attribute [local simp] signed_eq word_eq text_eq bytes_eq part?_eq parts_eq signedField flagField_eq
  partField_eq

theorem Coin.ofRecord_toRecord : Function.LeftInverse Coin.ofRecord Coin.toRecord := by
  intro c
  simp [Coin.ofRecord, Coin.toRecord]

theorem Packed.ofRecord_toRecord : Function.LeftInverse Packed.ofRecord Packed.toRecord := by
  intro p
  simp [Packed.ofRecord, Packed.toRecord]

theorem Description.ofRecord_toRecord :
    Function.LeftInverse Description.ofRecord Description.toRecord := by
  intro d
  simp [Description.ofRecord, Description.toRecord]

theorem CommissionRates.ofRecord_toRecord :
    Function.LeftInverse CommissionRates.ofRecord CommissionRates.toRecord := by
  intro c
  simp [CommissionRates.ofRecord, CommissionRates.toRecord]

theorem ProposalHeader.ofRecord_toRecord :
    Function.LeftInverse ProposalHeader.ofRecord ProposalHeader.toRecord := by
  intro h
  simp [ProposalHeader.ofRecord, ProposalHeader.toRecord]

theorem Holding.ofRecord_toRecord : Function.LeftInverse Holding.ofRecord Holding.toRecord := by
  intro h
  simp [Holding.ofRecord, Holding.toRecord, Coin.ofRecord_toRecord.comp_eq_id]

theorem Timestamp.ofRecord_toRecord {t : Timestamp} (h : t.Fits) :
    Timestamp.ofRecord t.toRecord = t := by
  obtain ⟨⟨hs, hs'⟩, hn, hn'⟩ := h
  have hseconds := signedWord_wordOfSigned hs hs'
  have hnanos := signedWord_wordOfSigned (z := t.nanos) (by omega) (by omega)
  simp [Timestamp.ofRecord, Timestamp.toRecord, hseconds, hnanos]

theorem Equivocation.ofRecord_toRecord {q : Equivocation} (h : q.Fits) :
    Equivocation.ofRecord q.toRecord = q := by
  obtain ⟨⟨hh, hh'⟩, ⟨hp, hp'⟩, ht⟩ := h
  have hheight := signedWord_wordOfSigned hh hh'
  have hpower := signedWord_wordOfSigned hp hp'
  have htime : (q.time.map Timestamp.toRecord).map Timestamp.ofRecord = q.time := by
    cases hq : q.time with
    | none => rfl
    | some t => exact congrArg some (Timestamp.ofRecord_toRecord (ht t hq))
  simp [Equivocation.ofRecord, Equivocation.toRecord, hheight, hpower, htime]

end

section

attribute [local simp] Body.ofRecord Body.toRecord Body.kind coinsOf coinFields coinOf? coinField
  signed_eq word_eq text_eq part?_eq parts_eq signedField flagField_eq partField_eq
  Function.LeftInverse.comp_eq_id Coin.ofRecord_toRecord Packed.ofRecord_toRecord
  Description.ofRecord_toRecord CommissionRates.ofRecord_toRecord Holding.ofRecord_toRecord

theorem Body.ofRecord_toRecord {b : Body} (h : b.Fits) : Body.ofRecord b.toRecord b.kind = b := by
  cases b with
  | vote m =>
    obtain ⟨-, ho, ho'⟩ := h
    have hoption := signedWord_wordOfSigned (z := m.option) (by omega) (by omega)
    simp [hoption]
  | createVestingAccount m =>
    have hend := signedWord_wordOfSigned h.1 h.2
    have hdelayed : (m.delayed.toNat != 0) = m.delayed := by cases m.delayed <;> rfl
    simp [hend, hdelayed]
  | relay kind relays => exact h.elim
  | _ => simp

end

/-! ## Canonical records -/

theorem fills_signedField (h : type.rule? tag = some (one tag name .word64)) {z : Int}
    (low : -2 ^ 63 ≤ z) (high : z < 2 ^ 63) :
    Fills (Nested depth) type tag (signedField tag z) :=
  fills_wordField h rfl (wordOfSigned_lt low high) rfl

theorem fills_signedField_of_narrow (h : type.rule? tag = some (one tag name .signed32)) {z : Int}
    (low : -2 ^ 31 ≤ z) (high : z < 2 ^ 31) :
    Fills (Nested depth) type tag (signedField tag z) :=
  fills_wordField h rfl (wordOfSigned_lt (by omega) (by omega)) (narrowWord_wordOfSigned low high)

theorem nested_coin (depth : Nat) (c : Coin) : Nested (depth + 1) .coin c.toRecord := by
  have hu : Ungrouped .coin := by decide
  have h₀ := upto_nil (Nested depth) .coin
  have h₁ := h₀.append (fills_textField rfl c.denom) hu
  exact (h₁.append (fills_textField rfl c.amount) hu).lawful

theorem nested_packed (depth : Nat) (p : Packed) : Nested (depth + 1) .any p.toRecord := by
  have hu : Ungrouped .any := by decide
  have h₀ := upto_nil (Nested depth) .any
  have h₁ := h₀.append (fills_textField rfl p.typeUrl) hu
  exact (h₁.append (fills_bytesField rfl p.value) hu).lawful

theorem nested_description (depth : Nat) (d : Description) :
    Nested (depth + 1) .description d.toRecord := by
  have hu : Ungrouped .description := by decide
  have h₀ := upto_nil (Nested depth) .description
  have h₁ := h₀.append (fills_textField rfl d.moniker) hu
  have h₂ := h₁.append (fills_textField rfl d.identity) hu
  have h₃ := h₂.append (fills_textField rfl d.website) hu
  have h₄ := h₃.append (fills_textField rfl d.securityContact) hu
  exact (h₄.append (fills_textField rfl d.details) hu).lawful

theorem nested_commissionRates (depth : Nat) (c : CommissionRates) :
    Nested (depth + 1) .commissionRates c.toRecord := by
  have hu : Ungrouped .commissionRates := by decide
  have h₀ := upto_nil (Nested depth) .commissionRates
  have h₁ := h₀.append (fills_textField rfl c.rate) hu
  have h₂ := h₁.append (fills_textField rfl c.maxRate) hu
  exact (h₂.append (fills_textField rfl c.maxChangeRate) hu).lawful

theorem nested_timestamp (depth : Nat) {t : Timestamp} (h : t.Fits) :
    Nested (depth + 1) .timestamp t.toRecord := by
  have hu : Ungrouped .timestamp := by decide
  have h₀ := upto_nil (Nested depth) .timestamp
  have h₁ := h₀.append (fills_signedField rfl h.1.1 h.1.2) hu
  exact (h₁.append (fills_signedField_of_narrow rfl h.2.1 h.2.2) hu).lawful

theorem canonical_header (h : ProposalHeader) : Canonical depthLimit .textProposal h.toRecord := by
  have hu : Ungrouped .textProposal := by decide
  have h₀ := upto_nil (Nested depthLimit) .textProposal
  have h₁ := h₀.append (fills_textField rfl h.title) hu
  exact (h₁.append (fills_textField rfl h.description) hu).lawful

theorem canonical_equivocation {q : Equivocation} (h : q.Fits) :
    Canonical depthLimit .equivocation q.toRecord := by
  obtain ⟨hh, hp, ht⟩ := h
  have hu : Ungrouped .equivocation := by decide
  have h₀ := upto_nil (Nested depthLimit) .equivocation
  have h₁ := h₀.append (fills_signedField rfl hh.1 hh.2) hu
  have h₂ := h₁.append (fills_partField rfl q.time fun t hq => nested_timestamp 99 (ht t hq)) hu
  have h₃ := h₂.append (fills_signedField rfl hp.1 hp.2) hu
  exact (h₃.append (fills_textField rfl q.consensusAddress) hu).lawful

theorem fills_coinFields (h : type.rule? tag = some (many tag name (.message .coin)))
    (coins : List Coin) : Fills (Nested (depth + 1)) type tag (coinFields tag coins) :=
  fills_partFields h coins fun c _ => nested_coin depth c

theorem fills_coinField (h : type.rule? tag = some (one tag name (.message .coin)))
    (coin : Option Coin) : Fills (Nested (depth + 1)) type tag (coinField tag coin) :=
  fills_partField h coin fun c _ => nested_coin depth c

/-- Inputs and outputs have the same fields. -/
theorem nested_holding (type : MessageType)
    (haddress : type.rule? 1 = some (one 1 "address" .text))
    (hcoins : type.rule? 2 = some (many 2 "coins" (.message .coin))) (hu : Ungrouped type)
    (depth : Nat) (h : Holding) : Nested (depth + 2) type h.toRecord := by
  have h₁ := (upto_nil (Nested (depth + 1)) type).append (fills_textField haddress h.address) hu
  exact (h₁.append (fills_coinFields hcoins h.coins) hu).lawful

theorem ungrouped (kind : MessageKind) : Ungrouped kind.messageType := by
  cases kind <;> decide

theorem canonical_toRecord {b : Body} (h : b.Fits) :
    Canonical depthLimit b.kind.messageType b.toRecord := by
  have hu := ungrouped b.kind
  have h₀ := upto_nil (Nested depthLimit) b.kind.messageType
  cases b with
  | send m =>
    have h₁ := h₀.append (fills_textField rfl m.fromAddress) hu
    have h₂ := h₁.append (fills_textField rfl m.toAddress) hu
    exact (h₂.append (fills_coinFields rfl m.amount) hu).lawful
  | multiSend m =>
    have hin := nested_holding .input rfl rfl (by decide) 98
    have hout := nested_holding .output rfl rfl (by decide) 98
    have h₁ := h₀.append (fills_partFields rfl m.inputs fun h _ => hin h) hu
    exact (h₁.append (fills_partFields rfl m.outputs fun h _ => hout h) hu).lawful
  | verifyInvariant m =>
    have h₁ := h₀.append (fills_textField rfl m.sender) hu
    have h₂ := h₁.append (fills_textField rfl m.invariantModule) hu
    exact (h₂.append (fills_textField rfl m.invariantRoute) hu).lawful
  | withdrawCommission m => exact (h₀.append (fills_textField rfl m.validatorAddress) hu).lawful
  | setWithdrawAddress m =>
    have h₁ := h₀.append (fills_textField rfl m.delegatorAddress) hu
    exact (h₁.append (fills_textField rfl m.withdrawAddress) hu).lawful
  | withdrawReward m =>
    have h₁ := h₀.append (fills_textField rfl m.delegatorAddress) hu
    exact (h₁.append (fills_textField rfl m.validatorAddress) hu).lawful
  | fundCommunityPool m =>
    have h₁ := h₀.append (fills_coinFields rfl m.amount) hu
    exact (h₁.append (fills_textField rfl m.depositor) hu).lawful
  | submitEvidence m =>
    have h₁ := h₀.append (fills_textField rfl m.submitter) hu
    exact (h₁.append (fills_partField rfl m.evidence fun p _ => nested_packed 99 p) hu).lawful
  | deposit m =>
    have h₁ := h₀.append (fills_wordField rfl rfl h rfl) hu
    have h₂ := h₁.append (fills_textField rfl m.depositor) hu
    exact (h₂.append (fills_coinFields rfl m.amount) hu).lawful
  | vote m =>
    obtain ⟨hid, ho, ho'⟩ := h
    have h₁ := h₀.append (fills_wordField rfl rfl hid rfl) hu
    have h₂ := h₁.append (fills_textField rfl m.voter) hu
    exact (h₂.append (fills_signedField_of_narrow rfl ho ho') hu).lawful
  | submitProposal m =>
    have h₁ := h₀.append (fills_partField rfl m.content fun p _ => nested_packed 99 p) hu
    have h₂ := h₁.append (fills_coinFields rfl m.initialDeposit) hu
    exact (h₂.append (fills_textField rfl m.proposer) hu).lawful
  | unjail m => exact (h₀.append (fills_textField rfl m.validatorAddress) hu).lawful
  | undelegate m =>
    have h₁ := h₀.append (fills_textField rfl m.delegatorAddress) hu
    have h₂ := h₁.append (fills_textField rfl m.validatorAddress) hu
    exact (h₂.append (fills_coinField rfl m.amount) hu).lawful
  | delegate m =>
    have h₁ := h₀.append (fills_textField rfl m.delegatorAddress) hu
    have h₂ := h₁.append (fills_textField rfl m.validatorAddress) hu
    exact (h₂.append (fills_coinField rfl m.amount) hu).lawful
  | redelegate m =>
    have h₁ := h₀.append (fills_textField rfl m.delegatorAddress) hu
    have h₂ := h₁.append (fills_textField rfl m.sourceAddress) hu
    have h₃ := h₂.append (fills_textField rfl m.destinationAddress) hu
    exact (h₃.append (fills_coinField rfl m.amount) hu).lawful
  | createValidator m =>
    have h₁ := h₀.append (fills_partField rfl m.description fun d _ => nested_description 99 d) hu
    have h₂ := h₁.append
      (fills_partField rfl m.commission fun c _ => nested_commissionRates 99 c) hu
    have h₃ := h₂.append (fills_textField rfl m.minSelfDelegation) hu
    have h₄ := h₃.append (fills_textField rfl m.delegatorAddress) hu
    have h₅ := h₄.append (fills_textField rfl m.validatorAddress) hu
    have h₆ := h₅.append (fills_partField rfl m.pubkey fun p _ => nested_packed 99 p) hu
    exact (h₆.append (fills_coinField rfl m.value) hu).lawful
  | editValidator m =>
    have h₁ := h₀.append (fills_partField rfl m.description fun d _ => nested_description 99 d) hu
    have h₂ := h₁.append (fills_textField rfl m.validatorAddress) hu
    have h₃ := h₂.append (fills_textField rfl m.commissionRate) hu
    exact (h₃.append (fills_textField rfl m.minSelfDelegation) hu).lawful
  | createVestingAccount m =>
    have h₁ := h₀.append (fills_textField rfl m.fromAddress) hu
    have h₂ := h₁.append (fills_textField rfl m.toAddress) hu
    have h₃ := h₂.append (fills_coinFields rfl m.amount) hu
    have h₄ := h₃.append (fills_signedField rfl h.1 h.2) hu
    exact (h₄.append (fills_flagField rfl m.delayed) hu).lawful
  | relay kind relays => exact h.elim

/-! ## Reading back -/

/-- The bytes of a content are read as this content. -/
theorem read_encode {b : Body} (h : b.Fits) (hl : (encode b.toRecord).length < 2 ^ 64) :
    read b.kind (encode b.toRecord) = .ok b := by
  unfold read readPayload
  rw [decode_encode (canonical_toRecord h) hl]
  exact congrArg Except.ok (Body.ofRecord_toRecord h)

end ChainIndexer.Message
