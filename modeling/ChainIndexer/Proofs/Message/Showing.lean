import ChainIndexer.Proofs.Keyed.Entries
import ChainIndexer.Proofs.Message.Heading
import ChainIndexer.Proofs.Message.Roles
import ChainIndexer.Proofs.Text.Numeral

/-
  What an event shows of its message.

  An event shows a row of the table when each item of the row is in its place in the event and
  nothing else is (`Event.Shows`). Whatever is added to an event is added to the row that it shows,
  so the event of a message shows the row of the message (`shows_event`).
-/

namespace ChainIndexer

open Message Outcome Text

/-- A transfer of an account with the amounts of some coins. -/
def Carries (p : String × List Coin) (t : Transfer) : Prop :=
  ∃ amounts, p.2.Forall₂ (fun c a => c.quantity.read = .ok a) amounts ∧ t = .plain p.1 amounts

/-- An event of a kind that shows a row and nothing else, besides what the chain moved. -/
structure Event.Shows (e : Event) (kind : MessageKind) (r : Roles) (moved : Keyed (List Transfer)) :
    Prop where
  heading : e.heading = ([kind.tag], kind.moduleName, none)
  senders : r.senders.Forall₂ Carries e.senders
  recipients : r.recipients.Forall₂ Carries e.recipients
  nodes : e.nodes.Holds r.nodes fun account accounts => accounts = [account]
  amounts : e.amounts.Holds r.amounts fun q a => q.read = .ok a
  additional : e.additional.Holds r.additional fun text texts => texts = [text]
  transfers : e.transfers = moved

theorem indexedLabel_injective {name : String} {i j : Nat}
    (h : indexedLabel name i = indexedLabel name j) : i = j := by
  have hne : ∀ k : Nat, name ≠ name ++ "_" ++ k.repr := by
    intro k hk
    have hl := congrArg String.length hk
    simp only [String.length_append] at hl
    have hu : "_".length = 1 := rfl
    omega
  unfold indexedLabel at h
  split at h
  · rename_i hi
    split at h
    · rename_i hj
      rw [hi, hj]
    · exact absurd h (hne j)
  · split at h
    · exact absurd h.symm (hne i)
    · exact eq_of_repr_eq ((String.append_right_inj _).1 h)

theorem carries_of_readCoins {id : String} {coins : List Coin} {amounts : List Amount}
    (h : readCoins coins = .ok amounts) :
    Carries (id, coins) (.plain id amounts) :=
  ⟨amounts, (mapM_eq_ok.1 h).imp fun _ _ => mapError_eq_ok.1, rfl⟩

namespace Event.Shows

variable {e e' : Event} {kind : MessageKind} {r : Roles} {moved : Keyed (List Transfer)}
  {label : String} {amounts : List Amount}

/-! ## Adding to an event -/

theorem plain (kind : MessageKind) (settled : Option (String × List String)) :
    (Event.plain kind.tag kind.moduleName).Shows kind { settled := settled } .empty :=
  ⟨rfl, .nil, .nil, Keyed.holds_empty _, Keyed.holds_empty _, Keyed.holds_empty _, rfl⟩

theorem withAccount (h : e.Shows kind r moved) (role : String) (account : Account)
    (hk : role ∉ r.nodes.map Prod.fst) :
    (e.withAccount role account).Shows kind { r with nodes := r.nodes ++ [(role, account)] }
      moved :=
  ⟨h.heading, h.senders, h.recipients, Keyed.holds_append h.nodes hk, h.amounts, h.additional,
    h.transfers⟩

theorem withNode (h : e.Shows kind r moved) (role id : String)
    (hk : role ∉ r.nodes.map Prod.fst) :
    (e.withNode role id).Shows kind { r with nodes := r.nodes ++ [(role, .plain id)] } moved :=
  h.withAccount role (.plain id) hk

theorem withDetail (h : e.Shows kind r moved) (key value : String)
    (hk : key ∉ r.additional.map Prod.fst) :
    (e.withDetail key value).Shows kind
      { r with additional := r.additional ++ [(key, value)] } moved :=
  ⟨h.heading, h.senders, h.recipients, h.nodes, h.amounts, Keyed.holds_append h.additional hk,
    h.transfers⟩

theorem withAmount {a : Amount} (h : e.Shows kind r moved) (label : String) (q : Quantity)
    (hk : label ∉ r.amounts.map Prod.fst) (ha : q.read = .ok a) :
    (e.withAmount label a).Shows kind { r with amounts := r.amounts ++ [(label, q)] } moved := by
  refine ⟨h.heading, h.senders, h.recipients, h.nodes, ?_, h.additional, h.transfers⟩
  refine Keyed.holds_put h.amounts hk fun a' => ?_
  rw [ha, Except.ok.injEq, eq_comm]

theorem withSender {coins : List Coin} (h : e.Shows kind r moved) (id : String)
    (ha : readCoins coins = .ok amounts) :
    (e.withSender id amounts).Shows kind { r with senders := r.senders ++ [(id, coins)] } moved :=
  ⟨h.heading, List.rel_append h.senders (.cons (carries_of_readCoins ha) .nil), h.recipients,
    h.nodes, h.amounts, h.additional, h.transfers⟩

theorem withRecipient {coins : List Coin} (h : e.Shows kind r moved) (id : String)
    (ha : readCoins coins = .ok amounts) :
    (e.withRecipient id amounts).Shows kind
      { r with recipients := r.recipients ++ [(id, coins)] } moved :=
  ⟨h.heading, h.senders, List.rel_append h.recipients (.cons (carries_of_readCoins ha) .nil),
    h.nodes, h.amounts, h.additional, h.transfers⟩

/-! ## Parts of a mapping -/

theorem withIndexedAmounts {coins : List Coin} (h : e.Shows kind r moved) (name : String)
    (index : Nat) (ha : readCoins coins = .ok amounts)
    (hk : ∀ i, index ≤ i → indexedLabel name i ∉ r.amounts.map Prod.fst) :
    (Message.withIndexedAmounts name index amounts e).Shows kind
      { r with amounts := r.amounts ++ numbered name coins index } moved := by
  -- Each label is new because no later number has been used.
  replace ha := mapM_eq_ok.1 ha
  induction ha generalizing e r index with
  | nil => simpa [Message.withIndexedAmounts, numbered] using h
  | @cons c a coins amounts hc _ ih =>
    have hi := hk index (Nat.le_refl index)
    have h₁ := h.withAmount (indexedLabel name index) c.quantity hi (mapError_eq_ok.1 hc)
    have h₂ := ih h₁ (index + 1) ?_
    · rw [List.append_assoc] at h₂
      exact h₂
    · intro i hi
      rw [List.map_append, List.mem_append, not_or]
      refine ⟨hk i (Nat.le_of_succ_le hi), fun hm => ?_⟩
      have hl := indexedLabel_injective (List.mem_singleton.1 hm)
      omega

theorem withRead (h : e.Shows kind r moved) (q : Quantity) (hk : label ∉ r.amounts.map Prod.fst)
    (hq : (ofAmount q.read).map (e.withAmount label) = .ok e') :
    e'.Shows kind { r with amounts := r.amounts ++ [(label, q)] } moved := by
  obtain ⟨a, ha, rfl⟩ := map_eq_ok.1 hq
  exact h.withAmount label q hk (mapError_eq_ok.1 ha)

theorem withFilledRead {text : String} (h : e.Shows kind r moved) (q : Quantity)
    (hk : label ∉ r.amounts.map Prod.fst)
    (hq : (if text = "" then .ok e else (ofAmount q.read).map (e.withAmount label)) = .ok e') :
    e'.Shows kind { r with amounts := r.amounts ++ filled label text q } moved := by
  unfold filled
  split at hq
  · rename_i ht
    obtain rfl := Except.ok.inj hq
    rw [if_pos ht, List.append_nil]
    exact h
  · rename_i ht
    rw [if_neg ht]
    exact h.withRead q hk hq

theorem withCoin {coin : Option Coin} (h : e.Shows kind r moved)
    (hk : label ∉ r.amounts.map Prod.fst) (hc : Message.withCoin e label coin = .ok e') :
    e'.Shows kind { r with amounts := r.amounts ++ declared label coin } moved := by
  cases coin with
  | none =>
    obtain rfl := Except.ok.inj hc
    rw [show declared label none = [] from rfl, List.append_nil]
    exact h
  | some c => exact h.withRead c.quantity hk hc

theorem withCommission {rates : Option CommissionRates} (h : e.Shows kind r moved)
    (hk : ∀ label ∈ ["commission_rate", "commission_max_rate", "commission_max_change_rate"],
      label ∉ r.amounts.map Prod.fst)
    (hc : Message.withCommission e rates = .ok e') :
    e'.Shows kind { r with amounts := r.amounts ++ declaredRates rates } moved := by
  cases rates with
  | none =>
    obtain rfl := Except.ok.inj hc
    rw [show declaredRates none = [] from rfl, List.append_nil]
    exact h
  | some c =>
    obtain ⟨e₁, he₁, hc⟩ := bind_eq_ok.1 hc
    obtain ⟨e₂, he₂, he₃⟩ := bind_eq_ok.1 hc
    have h₁ := h.withRead (.decimal c.rate) (hk _ (by simp)) he₁
    have h₂ := h₁.withRead (.decimal c.maxRate) (by simp; simpa using hk _ (by simp)) he₂
    have h₃ := h₂.withRead (.decimal c.maxChangeRate) (by simp; simpa using hk _ (by simp)) he₃
    simpa [declaredRates] using h₃

theorem withFilled (h : e.Shows kind r moved) (key value : String)
    (hk : key ∉ r.additional.map Prod.fst) :
    (Message.withFilled e key value).Shows kind
      { r with additional := r.additional ++ filled key value value } moved := by
  unfold Message.withFilled filled
  split
  · rw [List.append_nil]
    exact h
  · exact h.withDetail key value hk

theorem withDelegator (h : e.Shows kind r moved) (address : String)
    (hk : "delegator" ∉ r.nodes.map Prod.fst) :
    (Message.withDelegator e address).Shows kind
      { r with nodes := r.nodes ++ filled "delegator" address (.plain address) } moved := by
  unfold Message.withDelegator filled
  split
  · rw [List.append_nil]
    exact h
  · exact h.withNode "delegator" address hk

end Event.Shows

/-! ## Events of messages -/

namespace Message

variable {e : Event} {kind : MessageKind} {r : Roles} {moved : Keyed (List Transfer)}

theorem readEvidence_eq_ok {packed : Option Packed} {q : Option Equivocation}
    (h : readEvidence packed = .ok q) : evidenceOf? packed = q := by
  cases packed with
  | none => exact Except.ok.inj h
  | some p =>
    simp only [readEvidence] at h
    unfold evidenceOf?
    rw [Option.bind_some]
    split at h
    · rename_i hu
      obtain ⟨record, hr, rfl⟩ := map_eq_ok.1 h
      rw [if_pos hu, mapError_eq_ok.1 hr]
      rfl
    · rename_i hu
      rw [if_neg hu]
      exact Except.ok.inj h

theorem shows_withEvidence (h : e.Shows kind r moved) (hr : r.additional = [])
    (q : Option Equivocation) :
    (withEvidence e q).Shows kind { r with additional := evidenceDetails q } moved := by
  cases q with
  | none =>
    have h₁ := h.withDetail "evidence_height" "0" (by simp [hr])
    rw [hr] at h₁
    exact h₁
  | some q =>
    have h₁ := h.withDetail "evidence_height" (integerText q.height) (by simp [hr])
    have h₂ := h₁.withDetail "evidence_consensus" q.consensusAddress (by simp [hr])
    have h₃ := h₂.withDetail "evidence_total_power" "0" (by simp [hr])
    have h₄ := h₃.withDetail "evidence_validator_power" (integerText q.power) (by simp [hr])
    rw [hr] at h₄
    exact h₄

theorem shows_withProposal (h : e.Shows kind r moved) (hr : r.additional = [])
    (content : Option Packed) :
    (withProposal e content).Shows kind
      { r with additional := content.toList.flatMap proposalDetails } moved := by
  cases content with
  | none =>
    rw [Option.toList_none, List.flatMap_nil, ← hr]
    exact h
  | some p =>
    have h₁ := h.withDetail "proposal_route" (proposalRoute p.typeUrl).1 (by simp [hr])
    have h₂ := h₁.withDetail "proposal_type" (proposalRoute p.typeUrl).2 (by simp [hr])
    have h₃ := h₂.withDetail "content" p.typeUrl (by simp [hr])
    rw [Option.toList_some, List.flatMap_singleton]
    unfold proposalDetails headerOf?
    simp only [withProposal]
    cases hd : Wire.decode .textProposal p.value with
    | error fault =>
      rw [hr] at h₃
      exact h₃
    | ok record =>
      have h₄ := h₃.withFilled "title" (record.text 1) (by simp [hr])
      have h₅ := h₄.withFilled "description" (record.text 2) (by simp [hr, filled])
      simpa [hr, Except.toOption, ProposalHeader.ofRecord] using h₅

theorem carries_of_readHoldings {holdings : List Holding} {transfers : List Transfer}
    (h : readHoldings holdings = .ok transfers) :
    (holdings.map fun h => (h.address, h.coins)).Forall₂ Carries transfers := by
  rw [List.forall₂_map_left_iff]
  refine (mapM_eq_ok.1 h).imp fun holding t ht => ?_
  obtain ⟨amounts, ha, rfl⟩ := map_eq_ok.1 ht
  exact carries_of_readCoins ha

/-- The event of a message shows the row of the message. -/
theorem shows_event {b : Body} (pool : String) (h : b.event = .ok e) :
    e.Shows b.kind (b.roles pool) .empty := by
  have hh := heading_event h
  -- A mapping writes its kind and module itself; they are those that `h₀` begins with.
  have h₀ := Event.Shows.plain b.kind (b.roles pool).settled
  have hnone : readCoins [] = .ok [] := rfl
  cases b with
  | send m =>
    obtain ⟨amounts, ha, h⟩ := bind_eq_ok.1 h
    obtain rfl := pure_eq_ok.1 h
    have h₁ := h₀.withSender m.fromAddress ha
    exact h₁.withRecipient m.toAddress ha
  | multiSend m =>
    obtain ⟨senders, hs, h⟩ := bind_eq_ok.1 h
    obtain ⟨recipients, hr, h⟩ := bind_eq_ok.1 h
    obtain rfl := pure_eq_ok.1 h
    exact ⟨hh, carries_of_readHoldings hs, carries_of_readHoldings hr, h₀.nodes, h₀.amounts,
      h₀.additional, rfl⟩
  | verifyInvariant m =>
    obtain rfl := Except.ok.inj h
    have h₁ := h₀.withSender m.sender hnone
    have h₂ := h₁.withDetail "invariant_route" m.invariantRoute (by simp)
    exact h₂.withDetail "invariant_module_name" m.invariantModule (by simp)
  | withdrawCommission m =>
    obtain rfl := Except.ok.inj h
    have h₁ := h₀.withNode "validator" m.validatorAddress (by simp)
    exact h₁.withRecipient m.validatorAddress hnone
  | setWithdrawAddress m =>
    obtain rfl := Except.ok.inj h
    have h₁ := h₀.withNode "delegator" m.delegatorAddress (by simp)
    exact h₁.withNode "withdraw" m.withdrawAddress (by simp)
  | withdrawReward m =>
    obtain rfl := Except.ok.inj h
    have h₁ := h₀.withNode "delegator" m.delegatorAddress (by simp)
    have h₂ := h₁.withNode "validator" m.validatorAddress (by simp)
    exact h₂.withRecipient m.delegatorAddress hnone
  | fundCommunityPool m =>
    obtain ⟨amounts, ha, h⟩ := bind_eq_ok.1 h
    obtain rfl := pure_eq_ok.1 h
    have h₁ := h₀.withNode "depositor" m.depositor (by simp)
    exact h₁.withSender m.depositor ha
  | submitEvidence m =>
    obtain ⟨evidence, he, h⟩ := bind_eq_ok.1 h
    obtain rfl := pure_eq_ok.1 h
    obtain rfl := readEvidence_eq_ok he
    have h₁ := h₀.withNode "submitter" m.submitter (by simp)
    exact shows_withEvidence h₁ rfl (evidenceOf? m.evidence)
  | deposit m =>
    obtain ⟨amounts, ha, h⟩ := bind_eq_ok.1 h
    obtain rfl := pure_eq_ok.1 h
    have h₁ := h₀.withNode "depositor" m.depositor (by simp)
    have h₂ := h₁.withIndexedAmounts "deposit" 0 ha fun _ _ => List.not_mem_nil
    have h₃ := h₂.withSender m.depositor ha
    exact h₃.withDetail "proposalID" m.proposalId.repr (by simp)
  | vote m =>
    obtain rfl := Except.ok.inj h
    have h₁ := h₀.withNode "voter" m.voter (by simp)
    have h₂ := h₁.withDetail "proposalID" m.proposalId.repr (by simp)
    exact h₂.withDetail "option" (voteName m.option) (by simp)
  | submitProposal m =>
    obtain ⟨amounts, ha, h⟩ := bind_eq_ok.1 h
    obtain rfl := pure_eq_ok.1 h
    have h₁ := h₀.withNode "proposer" m.proposer (by simp)
    have h₂ := h₁.withIndexedAmounts "initial_deposit" 0 ha fun _ _ => List.not_mem_nil
    have h₃ := h₂.withSender m.proposer ha
    exact shows_withProposal h₃ rfl m.content
  | unjail m =>
    obtain rfl := Except.ok.inj h
    exact h₀.withNode "validator" m.validatorAddress (by simp)
  | undelegate m =>
    have h₁ := h₀.withNode "delegator" m.delegatorAddress (by simp)
    have h₂ := h₁.withNode "validator" m.validatorAddress (by simp)
    exact h₂.withCoin (by simp) h
  | delegate m =>
    have h₁ := h₀.withNode "delegator" m.delegatorAddress (by simp)
    have h₂ := h₁.withNode "validator" m.validatorAddress (by simp)
    exact h₂.withCoin (by simp) h
  | redelegate m =>
    have h₁ := h₀.withNode "delegator" m.delegatorAddress (by simp)
    have h₂ := h₁.withNode "validator_source" m.sourceAddress (by simp)
    have h₃ := h₂.withNode "validator_destination" m.destinationAddress (by simp)
    exact h₃.withCoin (by simp) h
  | createValidator m =>
    obtain ⟨e₁, he₁, h⟩ := bind_eq_ok.1 h
    obtain ⟨e₂, he₂, he₃⟩ := bind_eq_ok.1 h
    have h₁ := h₀.withDelegator m.delegatorAddress (by simp)
    have h₂ := h₁.withAccount "validator" (describedAccount m.validatorAddress m.description)
      (by simp [filled])
    have h₃ := h₂.withCoin (by simp) he₁
    have h₄ := h₃.withRead (.coin m.minSelfDelegation "") (by simp [declared]) he₂
    exact h₄.withCommission (by simp [declared]) he₃
  | editValidator m =>
    rw [event_editValidator] at h
    obtain ⟨e₁, he₁, he₂⟩ := bind_eq_ok.1 h
    have h₁ := h₀.withAccount "validator" (describedAccount m.validatorAddress m.description)
      (by simp)
    have h₂ := h₁.withFilledRead (.coin m.minSelfDelegation "") (by simp) he₁
    exact h₂.withFilledRead (.decimal m.commissionRate) (by simp [filled]) he₂
  | createVestingAccount m =>
    obtain ⟨amounts, ha, h⟩ := bind_eq_ok.1 h
    obtain rfl := pure_eq_ok.1 h
    have h₁ := h₀.withSender m.fromAddress ha
    have h₂ := h₁.withRecipient m.toAddress ha
    have h₃ := h₂.withDetail "end_time" (integerText m.endTime) (by simp)
    exact h₃.withDetail "delayed" (if m.delayed then "true" else "false") (by simp)
  | relay kind relays =>
    obtain rfl := Except.ok.inj h
    exact ⟨hh, .nil, .nil, h₀.nodes, h₀.amounts, h₀.additional, rfl⟩

end Message

end ChainIndexer
