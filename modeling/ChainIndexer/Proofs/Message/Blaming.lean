import ChainIndexer.Proofs.Message.Refusing
import ChainIndexer.Proofs.Message.Settling

/-
  What is to blame for a message without an event.

  A message is not what was expected if and only if its payload, or what it hands in as evidence of
  two signatures, cannot be read as what its name says (`Undecodable`). If all that can be read, an
  amount is to blame: the first one that is none, of those which the row of the message names and
  then of those which its log moved (`amountTexts`). So the class of an error says where to look for
  its cause, whatever the payload is (`error_class_exact`).
-/

namespace ChainIndexer.Message

open Outcome Text Wire

variable {kind : MessageKind} {payload : Bytes} {ctx : Context} {b : Body} {name : String}
  {cause : Wire.Fault}

/-! ## What cannot be read -/

/-- The name of what cannot be read as it should be, and why: the payload of a kind, or the evidence
that a payload hands in under the type URL of evidence of two signatures. -/
inductive Undecodable (kind : MessageKind) (payload : Bytes) : String → Wire.Fault → Prop
  | payload {cause : Wire.Fault} (fails : decode kind.messageType payload = .error cause) :
      Undecodable kind payload kind.payloadName cause
  | evidence {r part : Record} {cause : Wire.Fault} (submits : kind = .evidenceSubmitEvidence)
      (reads : decode kind.messageType payload = .ok r) (hands : r.part? 2 = some part)
      (calls : (Packed.ofRecord part).typeUrl = equivocationUrl)
      (fails : decode .equivocation (Packed.ofRecord part).value = .error cause) :
      Undecodable kind payload "evidence.Equivocation" cause

theorem read_eq_ok_iff :
    read kind payload = .ok b ↔
      ∃ r, decode kind.messageType payload = .ok r ∧ Body.ofRecord r kind = b := by
  simp only [read, readPayload, map_eq_ok, mapError_eq_ok]

theorem read_of_decode {r : Record} (h : decode kind.messageType payload = .ok r) :
    read kind payload = .ok (Body.ofRecord r kind) :=
  read_eq_ok_iff.2 ⟨r, h, rfl⟩

theorem read_of_error (h : decode kind.messageType payload = .error cause) :
    read kind payload = .error (.notExpected kind.payloadName cause) := by
  unfold read readPayload
  rw [h]
  rfl

theorem evidenceFault?_eq_some_iff {packed : Option Packed} {fault : Fault} :
    evidenceFault? packed = some fault ↔
      ∃ p cause, packed = some p ∧ p.typeUrl = equivocationUrl ∧
        decode .equivocation p.value = .error cause ∧
          fault = .notExpected "evidence.Equivocation" cause := by
  constructor
  · intro h
    obtain ⟨p, hp, h⟩ := Option.bind_eq_some_iff.1 h
    split at h
    · rename_i hu
      obtain ⟨cause, hc, rfl⟩ := Option.map_eq_some_iff.1 h
      exact ⟨p, cause, hp, hu, eq_error_iff.2 hc, rfl⟩
    · cases h
  · rintro ⟨p, cause, rfl, hu, hd, rfl⟩
    simp only [evidenceFault?, Option.bind_some, hu, if_true, hd, Outcome.fault?, Option.map_some]

/-- Only a message that submits evidence may have something in it that cannot be read. -/
theorem unreadable?_ofRecord (r : Record) (kind : MessageKind) :
    (Body.ofRecord r kind).unreadable? =
      if kind = .evidenceSubmitEvidence then evidenceFault? ((r.part? 2).map Packed.ofRecord)
      else none := by
  cases kind <;> rfl

theorem unreadable?_eq_some_iff (reads : read kind payload = .ok b) {fault : Fault} :
    b.unreadable? = some fault ↔
      ∃ name cause, Undecodable kind payload name cause ∧ fault = .notExpected name cause := by
  obtain ⟨r, hr, rfl⟩ := read_eq_ok_iff.1 reads
  rw [unreadable?_ofRecord]
  constructor
  · intro h
    split at h
    · rename_i hk
      obtain ⟨p, cause, hp, hu, hd, rfl⟩ := evidenceFault?_eq_some_iff.1 h
      obtain ⟨part, hpart, rfl⟩ := Option.map_eq_some_iff.1 hp
      exact ⟨_, cause, .evidence hk hr hpart hu hd, rfl⟩
    · cases h
  · rintro ⟨name, cause, hu, rfl⟩
    cases hu with
    | payload fails => exact nomatch hr.symm.trans fails
    | @evidence r' part _ submits reads' hands calls fails =>
      obtain rfl := Except.ok.inj (hr.symm.trans reads')
      rw [if_pos submits]
      exact evidenceFault?_eq_some_iff.2 ⟨_, cause, by rw [hands]; rfl, calls, fails, rfl⟩

/-- A message whose payload and evidence can be read. -/
def Readable (kind : MessageKind) (payload : Bytes) (b : Body) : Prop :=
  read kind payload = .ok b ∧ ∀ name cause, ¬ Undecodable kind payload name cause

theorem readable_iff : Readable kind payload b ↔
    read kind payload = .ok b ∧ b.unreadable? = none := by
  refine and_congr_right fun reads => ?_
  rw [Option.eq_none_iff_forall_ne_some]
  constructor
  · intro h fault hf
    obtain ⟨name, cause, hu, _⟩ := (unreadable?_eq_some_iff reads).1 hf
    exact h name cause hu
  · intro h name cause hu
    exact h _ ((unreadable?_eq_some_iff reads).2 ⟨name, cause, hu, rfl⟩)

/-! ## Amounts -/

/-- An amount as it stands in a message, or the amounts as they stand in a log. -/
inductive AmountText where
  | named (q : Quantity)
  | moved (text : String)

/-- Why an amount is none. -/
def AmountText.fault? : AmountText → Option Amount.Fault
  | named q => Outcome.fault? q.read
  | moved text => Outcome.fault? (Amount.readCoins text)

/-- The amounts that a log moved, if they are settled at all. -/
def movedTexts (settled : Option (String × List String)) (log : MessageLog) : List AmountText :=
  settled.toList.flatMap fun s => (Settlement.placed log s.2).map fun p => .moved p.2

/-- The amounts in the row of a message, then those that its log moved. -/
def amountTexts (b : Body) (ctx : Context) : List AmountText :=
  (b.roles ctx.unbondedPool).quantities.map .named ++
    movedTexts (b.roles ctx.unbondedPool).settled ctx.log

theorem settled_ofRecord (r : Record) (kind : MessageKind) (pool : String) :
    ((Body.ofRecord r kind).roles pool).settled = settlement? pool kind := by
  cases kind <;> rfl

theorem fault?_attach (kind : MessageKind) (ctx : Context) (e : Event) :
    Outcome.fault? (attach kind ctx e) =
      ((movedTexts (settlement? ctx.unbondedPool kind) ctx.log).findSome?
        AmountText.fault?).map .amount := by
  unfold attach movedTexts
  cases settlement? ctx.unbondedPool kind with
  | none => rfl
  | some settled =>
    dsimp only
    rw [fault?_map, ofAmount, fault?_mapError, Settlement.fault?_reconcile, Option.toList_some,
      List.flatMap_singleton, List.findSome?_map]
    rfl

/-- A message that could be read has the fault of its evidence, or else of the first of its amounts
that is none. -/
theorem fault?_map_of_read (reads : read kind payload = .ok b) (ctx : Context) :
    Outcome.fault? (map kind payload ctx) =
      b.unreadable?.or (((amountTexts b ctx).findSome? AmountText.fault?).map .amount) := by
  have hm : map kind payload ctx = b.event >>= attach kind ctx := by
    unfold map
    rw [reads]
    rfl
  obtain ⟨r, _, rfl⟩ := read_eq_ok_iff.1 reads
  have hq : ((Body.ofRecord r kind).roles ctx.unbondedPool).fault? =
      ((((Body.ofRecord r kind).roles ctx.unbondedPool).quantities.map
        AmountText.named).findSome? AmountText.fault?).map .amount := by
    rw [Roles.fault?, List.findSome?_map, List.map_findSome?]
    rfl
  rw [hm, fault?_bind fun e _ => fault?_attach kind ctx e, fault?_event _ ctx.unbondedPool, hq,
    amountTexts, List.findSome?_append, settled_ofRecord, Option.or_assoc, Option.map_or]

/-! ## The three outcomes -/

/-- A message has no event because something cannot be read, or else because of the first of its
amounts that is none. -/
theorem map_eq_error_iff {fault : Fault} :
    map kind payload ctx = .error fault ↔
      (∃ name cause, Undecodable kind payload name cause ∧ fault = .notExpected name cause) ∨
        ∃ b cause, Readable kind payload b ∧
          (amountTexts b ctx).findSome? AmountText.fault? = some cause ∧ fault = .amount cause := by
  cases hd : decode kind.messageType payload with
  | error cause =>
    have hr := read_of_error hd
    have hm : map kind payload ctx = .error (.notExpected kind.payloadName cause) := by
      unfold map
      rw [hr]
      rfl
    rw [hm]
    constructor
    · rintro ⟨⟩
      exact .inl ⟨_, cause, .payload hd, rfl⟩
    · rintro (⟨name, cause', hu, rfl⟩ | ⟨b, cause', hb, _⟩)
      · cases hu with
        | payload fails =>
          obtain rfl := Except.error.inj (hd.symm.trans fails)
          rfl
        | evidence submits reads hands calls fails => exact nomatch hd.symm.trans reads
      · exact nomatch hr.symm.trans hb.1
  | ok r =>
    have reads := read_of_decode hd
    rw [eq_error_iff, fault?_map_of_read reads, Option.or_eq_some_iff,
      unreadable?_eq_some_iff reads, Option.map_eq_some_iff]
    refine or_congr_right ?_
    constructor
    · rintro ⟨hn, cause, hc, rfl⟩
      exact ⟨_, cause, readable_iff.2 ⟨reads, hn⟩, hc, rfl⟩
    · rintro ⟨b, cause, hb, hc, rfl⟩
      obtain rfl := Except.ok.inj (reads.symm.trans hb.1)
      exact ⟨(readable_iff.1 hb).2, cause, hc, rfl⟩

theorem exists_map_eq_ok_iff :
    (∃ e, map kind payload ctx = .ok e) ↔
      ∃ b, Readable kind payload b ∧ ∀ a ∈ amountTexts b ctx, a.fault? = none := by
  constructor
  · rintro ⟨e, he⟩
    obtain ⟨b, hb, _⟩ := bind_eq_ok.1 he
    have hn := exists_ok_iff.1 ⟨e, he⟩
    rw [fault?_map_of_read hb, Option.or_eq_none_iff, Option.map_eq_none_iff,
      List.findSome?_eq_none_iff] at hn
    exact ⟨b, readable_iff.2 ⟨hb, hn.1⟩, hn.2⟩
  · rintro ⟨b, hb, ha⟩
    obtain ⟨reads, hu⟩ := readable_iff.1 hb
    rw [exists_ok_iff, fault?_map_of_read reads, hu, Option.none_or, Option.map_eq_none_iff,
      List.findSome?_eq_none_iff]
    exact ha

/-! ## Errors -/

theorem ofAmount_ne_notExpected (cause : Amount.Fault) (text : String) :
    Error.ofAmount cause ≠ .notExpected text := by
  unfold Error.ofAmount
  split
  · exact nofun
  · exact nofun

/-- A message that is not what was expected has something that cannot be read, and says what. -/
theorem error_eq_notExpected_iff {text : String} :
    (map kind payload ctx).mapError Fault.toError = .error (.notExpected text) ↔
      ∃ name cause, Undecodable kind payload name cause ∧ text = name ++ ": " ++ cause.message := by
  rw [mapError_eq_error]
  constructor
  · rintro ⟨fault, hf, ht⟩
    rcases map_eq_error_iff.1 hf with ⟨name, cause, hu, rfl⟩ | ⟨b, cause, _, _, rfl⟩
    · exact ⟨name, cause, hu, (Error.notExpected.inj ht).symm⟩
    · exact absurd ht (ofAmount_ne_notExpected cause text)
  · rintro ⟨name, cause, hu, rfl⟩
    exact ⟨_, map_eq_error_iff.2 (.inl ⟨name, cause, hu, rfl⟩), rfl⟩

/-- A message that can be read has the error of the first of its amounts that is none. -/
theorem error_eq_iff_of_readable (hb : Readable kind payload b) {error : Error} :
    (map kind payload ctx).mapError Fault.toError = .error error ↔
      ∃ cause, (amountTexts b ctx).findSome? AmountText.fault? = some cause ∧
        error = .ofAmount cause := by
  rw [mapError_eq_error]
  constructor
  · rintro ⟨fault, hf, rfl⟩
    rcases map_eq_error_iff.1 hf with ⟨name, cause, hu, _⟩ | ⟨b', cause, hb', hc, rfl⟩
    · exact absurd hu (hb.2 name cause)
    · obtain rfl := Except.ok.inj (hb.1.symm.trans hb'.1)
      exact ⟨cause, hc, rfl⟩
  · rintro ⟨cause, hc, rfl⟩
    exact ⟨_, map_eq_error_iff.2 (.inr ⟨b, cause, hb, hc, rfl⟩), rfl⟩

/-- A message that can be read fails if and only if one of its amounts is none. -/
theorem exists_error_iff_of_readable (hb : Readable kind payload b) :
    (∃ error, (map kind payload ctx).mapError Fault.toError = .error error) ↔
      ∃ a ∈ amountTexts b ctx, a.fault?.isSome := by
  rw [← List.findSome?_isSome_iff, Option.isSome_iff_exists]
  constructor
  · rintro ⟨error, he⟩
    obtain ⟨cause, hc, _⟩ := (error_eq_iff_of_readable hb).1 he
    exact ⟨cause, hc⟩
  · rintro ⟨cause, hc⟩
    exact ⟨_, (error_eq_iff_of_readable hb).2 ⟨cause, hc, rfl⟩⟩

/-! ## What has no say -/

theorem readable_ofRecord {r : Record} (reads : decode kind.messageType payload = .ok r)
    (hn : (Body.ofRecord r kind).unreadable? = none) :
    Readable kind payload (Body.ofRecord r kind) :=
  readable_iff.2 ⟨read_of_decode reads, hn⟩

theorem eq_ofRecord {r : Record} (reads : decode kind.messageType payload = .ok r)
    (hb : Readable kind payload b) : b = Body.ofRecord r kind :=
  Except.ok.inj (hb.1.symm.trans (read_of_decode reads))

/-- A proposal names the coins of its deposit, and nothing of its content. -/
theorem forall_amountTexts_submitProposal (r : Record) (ctx : Context) :
    (∀ a ∈ amountTexts (Body.ofRecord r .govSubmitProposal) ctx, a.fault? = none) ↔
      (∀ c ∈ coinsOf r 2, ∃ a, Amount.ofCoin c.amount c.denom = .ok a) ∧
        ∀ p ∈ Settlement.placed ctx.log [], ∃ as, Amount.readCoins p.2 = .ok as := by
  simp only [exists_ok_iff]
  have hq : ((Body.ofRecord r .govSubmitProposal).roles ctx.unbondedPool).quantities =
      (coinsOf r 2).map Coin.quantity ++ (coinsOf r 2).map Coin.quantity := by
    have hn := map_snd_numbered "initial_deposit" (coinsOf r 2) 0
    unfold Roles.quantities
    simp only [Body.ofRecord, Body.roles, List.append_nil, List.flatMap_singleton, hn]
  have hs : ((Body.ofRecord r .govSubmitProposal).roles ctx.unbondedPool).settled =
      some ("send", []) := rfl
  rw [amountTexts, hq, hs, movedTexts]
  simp only [List.forall_mem_append, List.forall_mem_map, Option.toList_some,
    List.flatMap_singleton, List.map_append, and_self]
  rfl

/-- Evidence under another type URL is not read, and nothing else of the message is an amount. -/
theorem exists_map_submitEvidence {r : Record}
    (reads : decode MessageKind.evidenceSubmitEvidence.messageType payload = .ok r)
    (foreign : ∀ part, r.part? 2 = some part →
      (Packed.ofRecord part).typeUrl ≠ equivocationUrl) :
    ∃ e, map .evidenceSubmitEvidence payload ctx = .ok e := by
  refine exists_map_eq_ok_iff.2 ⟨_, readable_ofRecord reads ?_, ?_⟩
  · rw [unreadable?_ofRecord, if_pos rfl, Option.eq_none_iff_forall_ne_some]
    intro fault hf
    obtain ⟨p, _, hp, hu, _⟩ := evidenceFault?_eq_some_iff.1 hf
    obtain ⟨part, hpart, rfl⟩ := Option.map_eq_some_iff.1 hp
    exact foreign part hpart hu
  · exact fun a ha => absurd ha List.not_mem_nil

/-- Whatever the kind, the payload and the log: a message is not what was expected if and only if
its payload or its evidence cannot be read, and says of which of them and why. If all that can be
read, it fails if and only if one of its amounts is none, with the error of the first that is. The
content of a proposal has no say in that, nor has evidence under another type URL. -/
theorem error_class_exact (kind : MessageKind) (payload : Bytes) (ctx : Context) :
    (∀ text, (map kind payload ctx).mapError Fault.toError = .error (.notExpected text) ↔
      ∃ name cause, Undecodable kind payload name cause ∧
        text = name ++ ": " ++ cause.message) ∧
    ((∀ name cause, ¬ Undecodable kind payload name cause) →
      ∃ r, decode kind.messageType payload = .ok r ∧
        ((∃ error, (map kind payload ctx).mapError Fault.toError = .error error) ↔
          ∃ a ∈ amountTexts (Body.ofRecord r kind) ctx, a.fault?.isSome) ∧
        ∀ error, (map kind payload ctx).mapError Fault.toError = .error error ↔
          ∃ cause, (amountTexts (Body.ofRecord r kind) ctx).findSome? AmountText.fault? =
            some cause ∧ error = .ofAmount cause) ∧
    (∀ r, kind = .govSubmitProposal → decode kind.messageType payload = .ok r →
      ((∃ e, map kind payload ctx = .ok e) ↔
        (∀ c ∈ coinsOf r 2, ∃ a, Amount.ofCoin c.amount c.denom = .ok a) ∧
          ∀ p ∈ Settlement.placed ctx.log [], ∃ as, Amount.readCoins p.2 = .ok as)) ∧
    ∀ r, kind = .evidenceSubmitEvidence → decode kind.messageType payload = .ok r →
      (∀ part, r.part? 2 = some part → (Packed.ofRecord part).typeUrl ≠ equivocationUrl) →
        ∃ e, map kind payload ctx = .ok e := by
  refine ⟨fun text => error_eq_notExpected_iff, ?_, ?_, ?_⟩
  · intro decodes
    cases hr : decode kind.messageType payload with
    | error cause => exact absurd (.payload hr) (decodes _ cause)
    | ok r =>
      have hb : Readable kind payload (Body.ofRecord r kind) := ⟨read_of_decode hr, decodes⟩
      exact ⟨r, rfl, exists_error_iff_of_readable hb, fun error => error_eq_iff_of_readable hb⟩
  · rintro r rfl hr
    rw [← forall_amountTexts_submitProposal, exists_map_eq_ok_iff]
    constructor
    · rintro ⟨b, hb, ha⟩
      exact eq_ofRecord hr hb ▸ ha
    · intro ha
      exact ⟨_, readable_ofRecord hr rfl, ha⟩
  · rintro r rfl hr foreign
    exact exists_map_submitEvidence hr foreign

end ChainIndexer.Message
