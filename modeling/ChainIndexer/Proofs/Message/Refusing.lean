import ChainIndexer.Proofs.Message.Heading
import ChainIndexer.Proofs.Message.Roles

/-
  Why a message has no event.

  A message that could be read has no event for one of two reasons only: it hands in what calls
  itself evidence of two signatures and cannot be read as such (`unreadable?`), or an amount that it
  names is none (`fault?`). Of several amounts the first of its row decides (`fault?_event`).
-/

namespace ChainIndexer.Message

open Outcome Text Wire

/-- The fault of evidence that calls itself evidence of two signatures. -/
def evidenceFault? (packed : Option Packed) : Option Fault :=
  packed.bind fun p =>
    if p.typeUrl = equivocationUrl then
      (Outcome.fault? (decode .equivocation p.value)).map (.notExpected "evidence.Equivocation")
    else none

/-- The fault of what a message hands in as evidence. -/
def Body.unreadable? : Body → Option Fault
  | .submitEvidence m => evidenceFault? m.evidence
  | _ => none

/-- The fault of an amount. -/
def Quantity.fault? (q : Quantity) : Option Fault :=
  (Outcome.fault? q.read).map .amount

/-- The fault of the first amount of a row that is none. -/
def Roles.fault? (r : Roles) : Option Fault :=
  r.quantities.findSome? Quantity.fault?

/-! ## Amounts of a message -/

theorem fault?_ofAmount_read (q : Quantity) : Outcome.fault? (ofAmount q.read) = q.fault? :=
  fault?_mapError q.read Fault.amount

theorem fault?_readCoins (coins : List Coin) :
    Outcome.fault? (readCoins coins) = (coins.map Coin.quantity).findSome? Quantity.fault? := by
  unfold readCoins
  rw [fault?_mapM, List.findSome?_map]
  congr
  funext c
  exact fault?_ofAmount_read c.quantity

theorem fault?_readHoldings (holdings : List Holding) :
    Outcome.fault? (readHoldings holdings) =
      ((holdings.map fun h => (h.address, h.coins)).flatMap fun p =>
        p.2.map Coin.quantity).findSome? Quantity.fault? := by
  unfold readHoldings
  rw [fault?_mapM, findSome?_flatMap, List.findSome?_map]
  congr
  funext h
  rw [fault?_map, fault?_readCoins]
  rfl

theorem map_snd_numbered (name : String) (coins : List Coin) (index : Nat) :
    (numbered name coins index).map Prod.snd = coins.map Coin.quantity := by
  have h : (coins.zipIdx index).map Prod.fst = coins := List.zipIdx_map_fst index coins
  unfold numbered
  rw [List.map_map]
  conv_rhs => rw [← h, List.map_map]
  rfl

theorem fault?_withRead (e : Event) (label : String) (q : Quantity) :
    Outcome.fault? ((ofAmount q.read).map (e.withAmount label)) = q.fault? := by
  rw [fault?_map, fault?_ofAmount_read]

theorem fault?_withFilledRead (e : Event) (label text : String) (q : Quantity) :
    Outcome.fault? (if text = "" then .ok e else (ofAmount q.read).map (e.withAmount label)) =
      ((filled label text q).map Prod.snd).findSome? Quantity.fault? := by
  unfold filled
  split
  · rfl
  · rw [fault?_withRead]
    exact List.findSome?_singleton.symm

theorem fault?_withCoin (e : Event) (label : String) (coin : Option Coin) :
    Outcome.fault? (withCoin e label coin) =
      ((declared label coin).map Prod.snd).findSome? Quantity.fault? := by
  cases coin with
  | none => rfl
  | some c => exact (fault?_withRead e label c.quantity).trans List.findSome?_singleton.symm

theorem fault?_withCommission (e : Event) (rates : Option CommissionRates) :
    Outcome.fault? (withCommission e rates) =
      ((declaredRates rates).map Prod.snd).findSome? Quantity.fault? := by
  cases rates with
  | none => rfl
  | some c =>
    have hrate (e : Event) (label value : String) :
        Outcome.fault? (withDecimal e label value) = (Quantity.decimal value).fault? :=
      fault?_withRead e label (.decimal value)
    have h : Outcome.fault? (withCommission e (some c)) = (Quantity.decimal c.rate).fault?.or
        ((Quantity.decimal c.maxRate).fault?.or (Quantity.decimal c.maxChangeRate).fault?) := by
      unfold withCommission
      rw [← hrate e "commission_rate" c.rate, ← hrate e "commission_max_rate" c.maxRate]
      refine fault?_bind fun e₁ _ => ?_
      rw [hrate, ← hrate e₁ "commission_max_rate" c.maxRate]
      exact fault?_bind fun e₂ _ => hrate e₂ _ _
    rw [h, ← Option.or_none (o := (Quantity.decimal c.maxChangeRate).fault?)]
    simp only [declaredRates, Option.toList_some, List.flatMap_singleton, List.map_cons,
      List.map_nil, findSome?_cons_or, List.findSome?_nil]

/-! ## Events -/

theorem fault?_readEvidence (packed : Option Packed) :
    Outcome.fault? (readEvidence packed) = evidenceFault? packed := by
  cases packed with
  | none => rfl
  | some p =>
    simp only [readEvidence, evidenceFault?, Option.bind_some]
    split
    · rw [fault?_map]
      exact fault?_mapError (decode .equivocation p.value)
        (Fault.notExpected "evidence.Equivocation")
    · rfl

/-- A message has the fault of its evidence, or else of the first of its amounts that is none. -/
theorem fault?_event (b : Body) (pool : String) :
    Outcome.fault? b.event = b.unreadable?.or (b.roles pool).fault? := by
  unfold Roles.fault? Roles.quantities
  rw [List.findSome?_append, List.flatMap_append, List.findSome?_append]
  cases b with
  | send m =>
    refine (fault?_bind_pure (readCoins m.amount) _).trans ?_
    simp [Body.unreadable?, Body.roles, fault?_readCoins]
  | multiSend m =>
    have h := fault?_bind fun (senders : List Transfer) (_ : readHoldings m.inputs = .ok senders) =>
      fault?_bind_pure (readHoldings m.outputs) fun recipients =>
        { Event.plain "multisend" bankModule with senders := senders, recipients := recipients }
    refine h.trans ?_
    simp [Body.unreadable?, Body.roles, fault?_readHoldings]
  | fundCommunityPool m =>
    refine (fault?_bind_pure (readCoins m.amount) _).trans ?_
    simp [Body.unreadable?, Body.roles, fault?_readCoins]
  | submitEvidence m =>
    refine (fault?_bind_pure (readEvidence m.evidence) _).trans ?_
    simp [Body.unreadable?, Body.roles, fault?_readEvidence]
  | deposit m =>
    refine (fault?_bind_pure (readCoins m.amount) _).trans ?_
    simp [Body.unreadable?, Body.roles, fault?_readCoins, map_snd_numbered]
  | submitProposal m =>
    refine (fault?_bind_pure (readCoins m.initialDeposit) _).trans ?_
    simp [Body.unreadable?, Body.roles, fault?_readCoins, map_snd_numbered]
  | undelegate m =>
    refine (fault?_withCoin _ "undelegate" m.amount).trans ?_
    simp [Body.unreadable?, Body.roles]
  | delegate m =>
    refine (fault?_withCoin _ "delegate" m.amount).trans ?_
    simp [Body.unreadable?, Body.roles]
  | redelegate m =>
    refine (fault?_withCoin _ "delegate" m.amount).trans ?_
    simp [Body.unreadable?, Body.roles]
  | createValidator m =>
    have hrest (e : Event) :
        Outcome.fault? (withBareCoin e "self_delegation_min" m.minSelfDelegation >>=
          fun e => withCommission e m.commission) =
        (Quantity.coin m.minSelfDelegation "").fault?.or
          (((declaredRates m.commission).map Prod.snd).findSome? Quantity.fault?) := by
      rw [fault?_bind fun e₂ _ => fault?_withCommission e₂ m.commission]
      exact congrArg (Option.or · _) (fault?_withRead e _ (.coin m.minSelfDelegation ""))
    refine (fault?_bind fun e _ => hrest e).trans ?_
    rw [fault?_withCoin]
    simp [Body.unreadable?, Body.roles, findSome?_cons_or]
  | editValidator m =>
    have hmin (e : Event) := fault?_withFilledRead e "self_delegation_min" m.minSelfDelegation
      (.coin m.minSelfDelegation "")
    have hrate (e : Event) := fault?_withFilledRead e "commission_rate" m.commissionRate
      (.decimal m.commissionRate)
    rw [event_editValidator]
    refine (fault?_bind fun e _ => hrate e).trans ?_
    refine (congrArg (Option.or · _) (hmin _)).trans ?_
    simp [Body.unreadable?, Body.roles]
  | createVestingAccount m =>
    refine (fault?_bind_pure (readCoins m.amount) _).trans ?_
    simp [Body.unreadable?, Body.roles, fault?_readCoins]
  | _ => rfl

end ChainIndexer.Message
