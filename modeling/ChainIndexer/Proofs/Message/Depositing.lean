import Mathlib.Data.List.Nodup
import ChainIndexer.Proofs.Keyed.Entries
import ChainIndexer.Proofs.Message.Heading
import ChainIndexer.Proofs.Message.Settling
import ChainIndexer.Proofs.Message.Writing

/-
  What is put down for a proposal.

  The coins of a deposit and of a proposal stand under numbered labels, and all of them with the
  account that put them down. Different numbers make different labels, so that no coin takes the
  place of another (`get?_labelled`, `length_labelled`), however many there are.
-/

namespace ChainIndexer.Message

open Outcome Text

variable {body : Body} {kind : MessageKind} {payload : Bytes} {label account : String}
  {coins : List Coin} {amounts : List Amount}

/-! ## Numbered labels -/

/-- Amounts under numbered labels, from a number on. -/
def labelled (name : String) (index : Nat) (amounts : List Amount) : List (String × Amount) :=
  (amounts.zipIdx index).map fun p => (indexedLabel name p.2, p.1)

theorem labelled_cons (name : String) (index : Nat) (a : Amount) (amounts : List Amount) :
    labelled name index (a :: amounts) =
      (indexedLabel name index, a) :: labelled name (index + 1) amounts :=
  rfl

/-- No label is used twice. -/
theorem nodup_labelled (name : String) (index : Nat) (amounts : List Amount) :
    ((labelled name index amounts).map Prod.fst).Nodup := by
  have hk : (labelled name index amounts).map Prod.fst =
      (List.range' index amounts.length).map (indexedLabel name) := by
    rw [← List.zipIdx_map_snd, labelled, List.map_map, List.map_map]
    rfl
  rw [hk]
  exact (List.nodup_range').map fun _ _ => indexedLabel_injective

theorem lookup_labelled (name : String) (index k : Nat) (amounts : List Amount) :
    (labelled name index amounts).lookup (indexedLabel name (index + k)) = amounts[k]? := by
  induction amounts generalizing index k with
  | nil => rfl
  | cons a amounts ih =>
    rw [labelled_cons, Keyed.lookup_entry]
    cases k with
    | zero => exact if_pos rfl
    | succ k =>
      have hne : indexedLabel name (index + (k + 1)) ≠ indexedLabel name index := fun h =>
        absurd (indexedLabel_injective h) (by omega)
      rw [if_neg hne, ← Nat.add_assoc, Nat.add_right_comm, ih, List.getElem?_cons_succ]

theorem withIndexedAmounts_eq (name : String) (index : Nat) (amounts : List Amount) (e : Event) :
    withIndexedAmounts name index amounts e =
      { e with
        amounts := (labelled name index amounts).foldl (fun m x => m.put x.1 x.2) e.amounts } := by
  induction amounts generalizing index e with
  | nil => rfl
  | cons a amounts ih =>
    rw [withIndexedAmounts, ih, labelled_cons, List.foldl_cons]
    rfl

/-! ## Deposits and proposals -/

/-- The label, the account and the coins of a message that puts coins down for a proposal. -/
def Body.deposited? : Body → Option (String × String × List Coin)
  | .deposit m => some ("deposit", m.depositor, m.amount)
  | .submitProposal m => some ("initial_deposit", m.proposer, m.initialDeposit)
  | _ => none

theorem mem_sends_of_deposited (h : body.deposited? = some (label, account, coins)) :
    body.kind ∈ sends := by
  unfold Body.deposited? at h
  split at h
  · exact (by decide : MessageKind.govDeposit ∈ sends)
  · exact (by decide : MessageKind.govSubmitProposal ∈ sends)
  · cases h

/-- The content of a proposal adds details and nothing else. -/
theorem exists_withProposal (e : Event) (content : Option Packed) :
    ∃ additional, withProposal e content = { e with additional := additional } := by
  cases content with
  | none => exact ⟨e.additional, rfl⟩
  | some p =>
    simp only [withProposal]
    cases Wire.decode .textProposal p.value with
    | error fault => exact ⟨_, rfl⟩
    | ok r =>
      simp only [withFilled]
      split
      · split
        · exact ⟨_, rfl⟩
        · exact ⟨_, rfl⟩
      · split
        · exact ⟨_, rfl⟩
        · exact ⟨_, rfl⟩

theorem exists_event_of_deposited (h : body.deposited? = some (label, account, coins))
    (ha : readCoins coins = .ok amounts) :
    ∃ e, body.event = .ok e ∧ e.amounts = .ofEntries (labelled label 0 amounts) ∧
      e.senders = [.plain account amounts] := by
  cases body with
  | deposit m =>
    cases h
    refine ⟨_, bind_eq_ok.2 ⟨amounts, ha, rfl⟩, ?_⟩
    rw [withIndexedAmounts_eq]
    exact ⟨rfl, rfl⟩
  | submitProposal m =>
    cases h
    refine ⟨_, bind_eq_ok.2 ⟨amounts, ha, rfl⟩, ?_⟩
    obtain ⟨additional, hp⟩ := exists_withProposal ((withIndexedAmounts "initial_deposit" 0 amounts
      ((Event.plain "submit_proposal" govModule).withNode "proposer" m.proposer)).withSender
      m.proposer amounts) m.content
    rw [hp, withIndexedAmounts_eq]
    exact ⟨rfl, rfl⟩
  | _ => cases h

/-- Nothing but the log can still keep such a message from having an event. -/
theorem map_of_deposited {e : Event} (hr : read kind payload = .ok body)
    (hd : body.deposited? = some (label, account, coins)) (he : body.event = .ok e)
    (ctx : Context) :
    map kind payload ctx =
      (ofAmount (Settlement.reconcile ctx.log [])).map (e.withTransfers "send") := by
  have hk : kind ∈ sends := by
    obtain ⟨r, _, rfl⟩ := map_eq_ok.1 hr
    rw [← kind_ofRecord r kind]
    exact mem_sends_of_deposited hd
  have hm : map kind payload ctx = attach kind ctx e := by
    unfold map
    rw [hr]
    exact congrArg (· >>= attach kind ctx) he
  rw [hm, attach, settlement?_of_mem_sends _ hk]

theorem withTransfers_eq (e : Event) (category : String) (moved : List Transfer) :
    (e.withTransfers category moved).amounts = e.amounts ∧
      (e.withTransfers category moved).senders = e.senders := by
  unfold Event.withTransfers
  split
  · exact ⟨rfl, rfl⟩
  · exact ⟨rfl, rfl⟩

/-- A deposit and a proposal whose coins can be read have an event unless the log is out of order.
The event declares one amount for each coin, that of the first under the bare label and that of any
other under the label with its number, and nothing else; and the account that put the coins down
sends all of them, in order. -/
theorem map_puts_down (hr : read kind payload = .ok body)
    (hd : body.deposited? = some (label, account, coins))
    (hc : ∀ c ∈ coins, ∃ a, Amount.ofCoin c.amount c.denom = .ok a) (ctx : Context) :
    ∃ amounts, coins.Forall₂ (fun c a => Amount.ofCoin c.amount c.denom = .ok a) amounts ∧
      ((∃ e, map kind payload ctx = .ok e) ↔ ∃ moved, Settlement.reconcile ctx.log [] = .ok moved) ∧
      ∀ e, map kind payload ctx = .ok e →
        e.amounts.entries.length = coins.length ∧
        (∀ k, (hk : k < amounts.length) →
          e.amounts.get? (if k = 0 then label else label ++ "_" ++ k.repr) = some amounts[k]) ∧
        e.senders = [⟨⟨account, none⟩, amounts⟩] := by
  have ha : ∃ amounts, readCoins coins = .ok amounts := by
    rw [exists_ok_iff, readCoins, fault?_mapM, List.findSome?_eq_none_iff]
    intro c hm
    rw [← exists_ok_iff]
    obtain ⟨a, h⟩ := hc c hm
    exact ⟨a, mapError_eq_ok.2 h⟩
  obtain ⟨amounts, ha⟩ := ha
  obtain ⟨declared, he, hamounts, hsenders⟩ := exists_event_of_deposited hd ha
  have hf : coins.Forall₂ (fun c a => Amount.ofCoin c.amount c.denom = .ok a) amounts :=
    (mapM_eq_ok.1 ha).imp fun _ _ => mapError_eq_ok.1
  have hm := map_of_deposited hr hd he ctx
  refine ⟨amounts, hf, ?_, fun e h => ?_⟩
  · rw [hm, exists_ok_iff, fault?_map, ofAmount, fault?_mapError, Option.map_eq_none_iff,
      ← exists_ok_iff]
  · rw [hm] at h
    obtain ⟨moved, _, rfl⟩ := map_eq_ok.1 h
    have hn := nodup_labelled label 0 amounts
    rw [(withTransfers_eq declared "send" moved).1, (withTransfers_eq declared "send" moved).2,
      hamounts]
    refine ⟨?_, fun k hk => ?_, hsenders⟩
    · rw [Keyed.length_ofEntries hn, labelled, List.length_map, List.length_zipIdx,
        hf.length_eq]
    · rw [Keyed.get?_ofEntries hn]
      have hl := lookup_labelled label 0 k amounts
      rw [Nat.zero_add, List.getElem?_eq_getElem hk] at hl
      exact hl

/-- A deposit of three coins, two of which are the same. -/
theorem map_puts_down_three :
    let b := Body.deposit ⟨42, "d", [⟨"uatom", "10"⟩, ⟨"ustake", "0.5"⟩, ⟨"uatom", "10"⟩]⟩
    ∃ e, map b.kind (Wire.encode b.toRecord) ⟨.empty, "pool"⟩ = .ok e ∧
      e.amounts.entries.length = 3 ∧
      e.amounts.get? "deposit" = some ⟨"10", 10, 0, "uatom"⟩ ∧
      e.amounts.get? "deposit_1" = some ⟨"0.5", 5, 1, "ustake"⟩ ∧
      e.amounts.get? "deposit_2" = some ⟨"10", 10, 0, "uatom"⟩ := by
  intro b
  have hr : read b.kind (Wire.encode b.toRecord) = .ok b :=
    read_encode (by decide : 42 < 2 ^ 64) (by decide +kernel)
  obtain ⟨amounts, hf, hiff, hall⟩ := map_puts_down hr rfl
    (by simp only [exists_ok_iff]; decide +kernel) ⟨.empty, "pool"⟩
  have ha : amounts =
      [⟨"10", 10, 0, "uatom"⟩, ⟨"0.5", 5, 1, "ustake"⟩, ⟨"10", 10, 0, "uatom"⟩] := by
    have hm := (mapM_eq_ok (f := fun c : Coin => Amount.ofCoin c.amount c.denom)).2 hf
    exact Except.ok.inj (hm.symm.trans (by decide +kernel))
  subst ha
  obtain ⟨e, he⟩ := hiff.2 ⟨[], by decide +kernel⟩
  obtain ⟨hlen, hget, -⟩ := hall e he
  exact ⟨e, he, hlen, hget 0 (by decide), hget 1 (by decide), hget 2 (by decide)⟩

end ChainIndexer.Message
