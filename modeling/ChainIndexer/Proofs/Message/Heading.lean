import ChainIndexer.Proofs.Outcome
import ChainIndexer.Message.Router

/-
  The heading of a mapped event.

  An event is built from a plain one by adding accounts, amounts, details and transfers. None of
  these touches its heading: its kinds, its module, and that it did not fail. Each message writes
  the names of its plain event itself, a second time after the table of kinds, and both writings
  agree (`heading_event`). So the event that a kind maps a payload to has the tag and the module of
  the kind (`heading_map`), with every payload and every log.
-/

namespace ChainIndexer

/-- What an event says before any detail: its kinds, its module, and why it failed if it did. -/
def Event.heading (e : Event) : List String × String × Option String :=
  (e.kinds, e.moduleName, e.failure)

namespace Event

@[simp] theorem heading_withAccount (e : Event) (role : String) (account : Account) :
    (e.withAccount role account).heading = e.heading := rfl

@[simp] theorem heading_withNode (e : Event) (role id : String) :
    (e.withNode role id).heading = e.heading := rfl

@[simp] theorem heading_withDetail (e : Event) (key value : String) :
    (e.withDetail key value).heading = e.heading := rfl

@[simp] theorem heading_withAmount (e : Event) (label : String) (amount : Amount) :
    (e.withAmount label amount).heading = e.heading := rfl

@[simp] theorem heading_withSender (e : Event) (id : String) (amounts : List Amount) :
    (e.withSender id amounts).heading = e.heading := rfl

@[simp] theorem heading_withRecipient (e : Event) (id : String) (amounts : List Amount) :
    (e.withRecipient id amounts).heading = e.heading := rfl

@[simp] theorem heading_withTransfers (e : Event) (category : String) (moved : List Transfer) :
    (e.withTransfers category moved).heading = e.heading := by
  unfold withTransfers
  split
  · rfl
  · rfl

end Event

namespace Message

open Outcome Text

/-! ## Parts of a mapping -/

@[simp] theorem heading_withIndexedAmounts (name : String) (index : Nat) (amounts : List Amount)
    (e : Event) : (withIndexedAmounts name index amounts e).heading = e.heading := by
  induction amounts generalizing index e with
  | nil => rfl
  | cons a amounts ih =>
    rw [withIndexedAmounts, ih]
    exact Event.heading_withAmount e _ a

@[simp] theorem heading_withEvidence (e : Event) (q : Option Equivocation) :
    (withEvidence e q).heading = e.heading := by
  cases q with
  | none => rfl
  | some q => rfl

@[simp] theorem heading_withFilled (e : Event) (key value : String) :
    (withFilled e key value).heading = e.heading := by
  unfold withFilled
  split
  · rfl
  · rfl

@[simp] theorem heading_withProposal (e : Event) (p : Option Packed) :
    (withProposal e p).heading = e.heading := by
  cases p with
  | none => rfl
  | some p =>
    simp only [withProposal]
    split
    · simp
    · simp

@[simp] theorem heading_withDelegator (e : Event) (address : String) :
    (withDelegator e address).heading = e.heading := by
  unfold withDelegator
  split
  · rfl
  · rfl

theorem heading_withCoin {e e' : Event} {label : String} {c : Option Coin}
    (h : withCoin e label c = .ok e') : e'.heading = e.heading := by
  cases c with
  | none =>
    obtain rfl := Except.ok.inj h
    rfl
  | some c =>
    obtain ⟨a, _, rfl⟩ := map_eq_ok.1 h
    exact Event.heading_withAmount e label a

theorem heading_withDecimal {e e' : Event} {label value : String}
    (h : withDecimal e label value = .ok e') : e'.heading = e.heading := by
  obtain ⟨a, _, rfl⟩ := map_eq_ok.1 h
  exact Event.heading_withAmount e label a

theorem heading_withBareCoin {e e' : Event} {label value : String}
    (h : withBareCoin e label value = .ok e') : e'.heading = e.heading := by
  obtain ⟨a, _, rfl⟩ := map_eq_ok.1 h
  exact Event.heading_withAmount e label a

theorem heading_ofFilled {e e' : Event} {text : String} {x : Except Fault Event}
    (hx : x = .ok e' → e'.heading = e.heading)
    (h : (if text = "" then .ok e else x) = .ok e') : e'.heading = e.heading := by
  split at h
  · obtain rfl := Except.ok.inj h
    rfl
  · exact hx h

theorem heading_withCommission {e e' : Event} {c : Option CommissionRates}
    (h : withCommission e c = .ok e') : e'.heading = e.heading := by
  cases c with
  | none =>
    obtain rfl := Except.ok.inj h
    rfl
  | some c =>
    obtain ⟨e₁, h₁, h⟩ := bind_eq_ok.1 h
    obtain ⟨e₂, h₂, h₃⟩ := bind_eq_ok.1 h
    rw [heading_withDecimal h₃, heading_withDecimal h₂, heading_withDecimal h₁]

/-! ## Mappings -/

theorem kind_ofRecord (r : Wire.Record) (kind : MessageKind) :
    (Body.ofRecord r kind).kind = kind := by
  cases kind <;> rfl

theorem event_editValidator (m : EditValidator) :
    (Body.editValidator m).event =
      let e := (Event.plain "edit_validator" stakingModule).withAccount "validator"
        (validatorAccount m.validatorAddress m.description)
      (if m.minSelfDelegation = "" then .ok e
        else withBareCoin e "self_delegation_min" m.minSelfDelegation) >>= fun e =>
      if m.commissionRate = "" then .ok e
      else withDecimal e "commission_rate" m.commissionRate := by
  simp only [Body.event]
  split
  · rfl
  · rfl

/-- The event of a message has the tag and the module of its kind, and did not fail. -/
theorem heading_event {b : Body} {e : Event} (h : b.event = .ok e) :
    e.heading = ([b.kind.tag], b.kind.moduleName, none) := by
  -- Each case takes away what was added, and then compares the plain event with the kind.
  cases b with
  | send m =>
    obtain ⟨amounts, _, h⟩ := bind_eq_ok.1 h
    obtain rfl := pure_eq_ok.1 h
    rw [Event.heading_withRecipient, Event.heading_withSender]
    rfl
  | multiSend m =>
    obtain ⟨senders, _, h⟩ := bind_eq_ok.1 h
    obtain ⟨recipients, _, h⟩ := bind_eq_ok.1 h
    obtain rfl := pure_eq_ok.1 h
    rfl
  | verifyInvariant m =>
    obtain rfl := Except.ok.inj h
    rw [Event.heading_withDetail, Event.heading_withDetail, Event.heading_withSender]
    rfl
  | withdrawCommission m =>
    obtain rfl := Except.ok.inj h
    rw [Event.heading_withRecipient, Event.heading_withNode]
    rfl
  | setWithdrawAddress m =>
    obtain rfl := Except.ok.inj h
    rw [Event.heading_withNode, Event.heading_withNode]
    rfl
  | withdrawReward m =>
    obtain rfl := Except.ok.inj h
    rw [Event.heading_withRecipient, Event.heading_withNode, Event.heading_withNode]
    rfl
  | fundCommunityPool m =>
    obtain ⟨amounts, _, h⟩ := bind_eq_ok.1 h
    obtain rfl := pure_eq_ok.1 h
    rw [Event.heading_withSender, Event.heading_withNode]
    rfl
  | submitEvidence m =>
    obtain ⟨evidence, _, h⟩ := bind_eq_ok.1 h
    obtain rfl := pure_eq_ok.1 h
    rw [heading_withEvidence, Event.heading_withNode]
    rfl
  | deposit m =>
    obtain ⟨amounts, _, h⟩ := bind_eq_ok.1 h
    obtain rfl := pure_eq_ok.1 h
    rw [Event.heading_withDetail, Event.heading_withSender, heading_withIndexedAmounts,
      Event.heading_withNode]
    rfl
  | vote m =>
    obtain rfl := Except.ok.inj h
    rw [Event.heading_withDetail, Event.heading_withDetail, Event.heading_withNode]
    rfl
  | submitProposal m =>
    obtain ⟨amounts, _, h⟩ := bind_eq_ok.1 h
    obtain rfl := pure_eq_ok.1 h
    rw [heading_withProposal, Event.heading_withSender, heading_withIndexedAmounts,
      Event.heading_withNode]
    rfl
  | unjail m =>
    obtain rfl := Except.ok.inj h
    rw [Event.heading_withNode]
    rfl
  | undelegate m | delegate m =>
    rw [heading_withCoin h, Event.heading_withNode, Event.heading_withNode]
    rfl
  | redelegate m =>
    rw [heading_withCoin h, Event.heading_withNode, Event.heading_withNode, Event.heading_withNode]
    rfl
  | createValidator m =>
    obtain ⟨e₁, h₁, h⟩ := bind_eq_ok.1 h
    obtain ⟨e₂, h₂, h₃⟩ := bind_eq_ok.1 h
    rw [heading_withCommission h₃, heading_withBareCoin h₂, heading_withCoin h₁,
      Event.heading_withAccount, heading_withDelegator]
    rfl
  | editValidator m =>
    rw [event_editValidator] at h
    obtain ⟨e₁, h₁, h₂⟩ := bind_eq_ok.1 h
    rw [heading_ofFilled heading_withDecimal h₂, heading_ofFilled heading_withBareCoin h₁,
      Event.heading_withAccount]
    rfl
  | createVestingAccount m =>
    obtain ⟨amounts, _, h⟩ := bind_eq_ok.1 h
    obtain rfl := pure_eq_ok.1 h
    rw [Event.heading_withDetail, Event.heading_withDetail, Event.heading_withRecipient,
      Event.heading_withSender]
    rfl
  | relay kind relays =>
    obtain rfl := Except.ok.inj h
    rw [Body.kind, MessageKind.moduleName, if_pos relays]
    rfl

theorem heading_attach {kind : MessageKind} {ctx : Context} {e e' : Event}
    (h : attach kind ctx e = .ok e') : e'.heading = e.heading := by
  unfold attach at h
  split at h
  · obtain rfl := Except.ok.inj h
    rfl
  · obtain ⟨moved, _, rfl⟩ := map_eq_ok.1 h
    exact Event.heading_withTransfers e _ moved

/-- A kind maps every payload to an event with its own tag and module that did not fail. -/
theorem heading_map {kind : MessageKind} {payload : Bytes} {ctx : Context} {e : Event}
    (h : map kind payload ctx = .ok e) : e.heading = ([kind.tag], kind.moduleName, none) := by
  obtain ⟨b, hb, h⟩ := bind_eq_ok.1 h
  obtain ⟨e₁, h₁, h₂⟩ := bind_eq_ok.1 h
  obtain ⟨r, _, rfl⟩ := map_eq_ok.1 hb
  rw [heading_attach h₂, heading_event h₁, kind_ofRecord]

end Message

end ChainIndexer
