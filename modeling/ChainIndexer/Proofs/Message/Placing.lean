import ChainIndexer.Proofs.Message.Refusing
import ChainIndexer.Proofs.Message.Settling
import ChainIndexer.Proofs.Message.Writing

/-
  Messages mapped from the bytes that are written for them.

  The bytes of a message whose amounts can be read give the event that shows its row of the table,
  with what the chain moved (`map_encode_shows`). Only evidence that calls itself evidence of two
  signatures and is none stops a message whose amounts can be read (`map_garbledEvidence`).
-/

namespace ChainIndexer.Message

open Outcome Text Wire

variable {b : Body} {ctx : Context}

theorem settled_roles (h : b.Fits) (pool : String) :
    (b.roles pool).settled = settlement? pool b.kind := by
  cases b with
  | relay kind relays => exact h.elim
  | _ => rfl

theorem declare_encode (h : b.Fits) (hl : (encode b.toRecord).length < 2 ^ 64) :
    declare b.kind (encode b.toRecord) = b.event := by
  unfold declare
  rw [read_encode h hl]
  rfl

theorem fault?_declare_encode (h : b.Fits) (hl : (encode b.toRecord).length < 2 ^ 64)
    (pool : String) :
    fault? (declare b.kind (encode b.toRecord)) = b.unreadable?.or (b.roles pool).fault? := by
  rw [declare_encode h hl, fault?_event b pool]

/-- What the chain moved can be told if all attributed amounts can be read. -/
theorem exists_transfersUnder {settled : Option (String × List String)} {log : MessageLog}
    (h : ∀ category excluded, settled = some (category, excluded) →
      ∀ p ∈ Settlement.placed log excluded, ∃ coins, Amount.readCoins p.2 = .ok coins) :
    ∃ moved, transfersUnder settled log = .ok moved := by
  cases settled with
  | none => exact ⟨.empty, rfl⟩
  | some p =>
    obtain ⟨category, excluded⟩ := p
    have hr := h category excluded rfl
    simp only [exists_ok_iff] at hr
    rw [exists_ok_iff]
    refine (fault?_map _ _).trans ?_
    rw [Settlement.fault?_reconcile, List.findSome?_eq_none_iff]
    exact hr

/-! ## Packed parts -/

theorem evidenceOf?_encode {q : Equivocation} (h : q.Fits)
    (hl : (encode q.toRecord).length < 2 ^ 64) :
    evidenceOf? (some ⟨equivocationUrl, encode q.toRecord⟩) = some q ∧
      evidenceFault? (some ⟨equivocationUrl, encode q.toRecord⟩) = none := by
  have hd := decode_encode (canonical_equivocation h) hl
  simp only [evidenceOf?, evidenceFault?, Option.bind_some, if_true, hd]
  exact ⟨congrArg some (Equivocation.ofRecord_toRecord h), rfl⟩

theorem headerOf?_encode (typeUrl : String) {header : ProposalHeader}
    (hl : (encode header.toRecord).length < 2 ^ 64) :
    headerOf? ⟨typeUrl, encode header.toRecord⟩ = some header := by
  unfold headerOf?
  rw [decode_encode (canonical_header header) hl]
  exact congrArg some (ProposalHeader.ofRecord_toRecord header)

/-! ## Messages -/

/-- The bytes of a message whose amounts can be read give the event that shows its row, with what
the chain moved, unless it hands in evidence that cannot be read. Written evidence and the written
header of a proposal are told as they were. -/
theorem map_encode_shows (hb : b.Fits) (hl : (encode b.toRecord).length < 2 ^ 64)
    (hq : ∀ q ∈ (b.roles ctx.unbondedPool).quantities, ∃ a, q.read = .ok a)
    (hlog : ∀ category excluded,
      (b.roles ctx.unbondedPool).settled = some (category, excluded) →
      ∀ p ∈ Settlement.placed ctx.log excluded, ∃ coins, Amount.readCoins p.2 = .ok coins) :
    (b.unreadable? = none → ∃ e moved,
      map b.kind (encode b.toRecord) ctx = .ok e ∧
      transfersUnder (b.roles ctx.unbondedPool).settled ctx.log = .ok moved ∧
      e.Shows b.kind (b.roles ctx.unbondedPool) moved) ∧
    (∀ fault, b.unreadable? = some fault → map b.kind (encode b.toRecord) ctx = .error fault) ∧
    (∀ submitter (q : Equivocation), q.Fits → (encode q.toRecord).length < 2 ^ 64 →
      b = .submitEvidence ⟨submitter, some ⟨equivocationUrl, encode q.toRecord⟩⟩ →
      b.unreadable? = none ∧
        (b.roles ctx.unbondedPool).additional = evidenceDetails (some q)) ∧
    ∀ typeUrl (header : ProposalHeader) coins proposer, (encode header.toRecord).length < 2 ^ 64 →
      b = .submitProposal ⟨some ⟨typeUrl, encode header.toRecord⟩, coins, proposer⟩ →
      (b.roles ctx.unbondedPool).additional =
        [("proposal_route", (proposalRoute typeUrl).1),
          ("proposal_type", (proposalRoute typeUrl).2), ("content", typeUrl)] ++
          (filled "title" header.title header.title ++
            filled "description" header.description header.description) := by
  have hnone : (b.roles ctx.unbondedPool).fault? = none := by
    unfold Roles.fault?
    rw [List.findSome?_eq_none_iff]
    intro q hmem
    rw [Quantity.fault?, exists_ok_iff.1 (hq q hmem)]
    rfl
  have hfault := fault?_declare_encode hb hl ctx.unbondedPool
  rw [hnone, Option.or_none] at hfault
  refine ⟨fun hu => ?_, fun fault hu => ?_, ?_, ?_⟩
  · rw [hu] at hfault
    obtain ⟨declared, hd⟩ := exists_ok_iff.2 hfault
    obtain ⟨moved, hm⟩ := exists_transfersUnder hlog
    rw [declare_encode hb hl] at hd
    have hs := shows_event ctx.unbondedPool hd
    refine ⟨{ declared with transfers := moved }, moved, ?_, hm, ?_⟩
    · rw [map_eq, declare_encode hb hl, hd]
      unfold movedBy
      rw [← settled_roles hb, hm]
      rfl
    · exact ⟨hs.heading, hs.senders, hs.recipients, hs.nodes, hs.amounts, hs.additional, rfl⟩
  · rw [hu] at hfault
    exact map_eq_error_of_declare (eq_error_iff.2 hfault) ctx
  · rintro submitter q hf hs rfl
    obtain ⟨he, hn⟩ := evidenceOf?_encode hf hs
    exact ⟨hn, congrArg evidenceDetails he⟩
  · rintro typeUrl header coins proposer hs rfl
    have hh := headerOf?_encode typeUrl hs
    simp [Body.roles, proposalDetails, hh]

/-- A proposal with two coins, whose log tells of a transfer. -/
theorem map_encode_shows_proposal :
    ∃ e moved,
      map .govSubmitProposal
        (encode (Body.submitProposal
          ⟨some ⟨"/cosmos.gov.v1beta1.TextProposal", [10, 1, 116]⟩,
            [⟨"uatom", "5"⟩, ⟨"ustake", "1.5"⟩], "p"⟩).toRecord)
        ⟨⟨0, "", [⟨"transfer", [⟨"recipient", "r"⟩, ⟨"amount", "7uatom"⟩]⟩]⟩, "pool"⟩ = .ok e ∧
      moved = .single "send" [.plain "r" [⟨"7uatom", 7, 0, "uatom"⟩]] ∧
      e.Shows .govSubmitProposal
        { senders := [("p", [⟨"uatom", "5"⟩, ⟨"ustake", "1.5"⟩])]
          nodes := [("proposer", .plain "p")]
          amounts := [("initial_deposit", .coin "5" "uatom"),
            ("initial_deposit_1", .coin "1.5" "ustake")]
          additional := [("proposal_route", "gov"), ("proposal_type", "Text"),
            ("content", "/cosmos.gov.v1beta1.TextProposal"), ("title", "t")]
          settled := some ("send", []) } moved := by
  have h := @map_encode_shows
    (.submitProposal ⟨some ⟨"/cosmos.gov.v1beta1.TextProposal", [10, 1, 116]⟩,
      [⟨"uatom", "5"⟩, ⟨"ustake", "1.5"⟩], "p"⟩)
    ⟨⟨0, "", [⟨"transfer", [⟨"recipient", "r"⟩, ⟨"amount", "7uatom"⟩]⟩]⟩, "pool"⟩
    trivial (by decide +kernel) (by simp only [exists_ok_iff]; decide +kernel)
    (by rintro _ _ ⟨⟩; simp only [exists_ok_iff]; decide +kernel)
  obtain ⟨e, moved, he, hm, hs⟩ := h.1 rfl
  refine ⟨e, moved, he, (Except.ok.inj hm).symm.trans (by decide +kernel), ?_⟩
  exact Eq.mp (congrArg (fun r => e.Shows _ r moved) (by decide +kernel)) hs

/-- Evidence that calls itself evidence of two signatures and is none stops the message, although it
names no amount. -/
theorem map_garbledEvidence :
    let b := Body.submitEvidence ⟨"s", some ⟨equivocationUrl, [0xff]⟩⟩
    let ctx : Context := ⟨.empty, "pool"⟩
    b.Fits ∧ (b.roles ctx.unbondedPool).quantities = [] ∧ Settlement.placed ctx.log [] = [] ∧
      map b.kind (encode b.toRecord) ctx =
        .error (.notExpected "evidence.Equivocation" ⟨[], .varint⟩) := by
  refine ⟨trivial, rfl, rfl, ?_⟩
  decide +kernel

end ChainIndexer.Message
