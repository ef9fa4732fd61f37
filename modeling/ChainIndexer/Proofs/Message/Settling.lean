import ChainIndexer.Proofs.Message.Showing
import ChainIndexer.Proofs.Settlement.Reconciliation

/-
  What logs have a say in.

  A message declares an event before its log is looked at, and this event moves nothing. The log
  only puts what it moved under the category of the kind (`map_eq`). So two logs give a message the
  same event but for its transfers, no log takes away an error that the message itself has, and a
  kind without a category never looks at its log (`logs_settle_transfers`).
-/

namespace ChainIndexer.Message

open Outcome Text

variable {kind : MessageKind} {payload : Bytes} {ctx ctx' : Context} {e e' : Event}

/-! ## Declared and moved -/

/-- The event of a payload, without what the chain moved. -/
def declare (kind : MessageKind) (payload : Bytes) : Except Fault Event :=
  read kind payload >>= Body.event

/-- What the chain moved, under its category: nothing stands under a category if nothing was
moved. -/
def transfersUnder (settled : Option (String × List String)) (log : MessageLog) :
    Except Amount.Fault (Keyed (List Transfer)) :=
  match settled with
  | none => .ok .empty
  | some (category, excluded) =>
    (Settlement.reconcile log excluded).map fun moved =>
      if moved = [] then .empty else .single category moved

/-- What the chain moved for a message of a kind. -/
def movedBy (kind : MessageKind) (ctx : Context) : Except Fault (Keyed (List Transfer)) :=
  ofAmount (transfersUnder (settlement? ctx.unbondedPool kind) ctx.log)

theorem transfers_of_declare (h : declare kind payload = .ok e) : e.transfers = .empty := by
  obtain ⟨b, _, hb⟩ := bind_eq_ok.1 h
  exact (shows_event "" hb).transfers

theorem attach_eq (he : e.transfers = .empty) :
    attach kind ctx e = (movedBy kind ctx).map fun moved => { e with transfers := moved } := by
  unfold attach movedBy transfersUnder
  cases settlement? ctx.unbondedPool kind with
  | none =>
    simp only [ofAmount, Except.mapError, Except.map, ← he]
  | some p =>
    obtain ⟨category, excluded⟩ := p
    simp only
    cases Settlement.reconcile ctx.log excluded with
    | error fault => rfl
    | ok moved =>
      simp only [ofAmount, Except.mapError, Except.map, Event.withTransfers, he]
      split
      · rw [← he]
      · rfl

/-- A message declares its event, and the log puts in what was moved. -/
theorem map_eq (kind : MessageKind) (payload : Bytes) (ctx : Context) :
    map kind payload ctx = declare kind payload >>= fun e =>
      (movedBy kind ctx).map fun moved => { e with transfers := moved } := by
  have h : map kind payload ctx = declare kind payload >>= attach kind ctx := by
    unfold map declare
    cases read kind payload with
    | error fault => rfl
    | ok b => rfl
  rw [h]
  cases hd : declare kind payload with
  | error fault => rfl
  | ok e => exact attach_eq (transfers_of_declare hd)

theorem map_eq_ok_iff :
    map kind payload ctx = .ok e ↔
      declare kind payload = .ok { e with transfers := .empty } ∧
        movedBy kind ctx = .ok e.transfers := by
  rw [map_eq, bind_eq_ok]
  constructor
  · rintro ⟨declared, hd, hmap⟩
    obtain ⟨moved, hm, rfl⟩ := Outcome.map_eq_ok.1 hmap
    have ht := transfers_of_declare hd
    refine ⟨?_, hm⟩
    rw [hd, ← ht]
  · rintro ⟨hd, hm⟩
    refine ⟨_, hd, ?_⟩
    rw [hm]
    rfl

theorem movedBy_of_no_events (h : ctx.log.events = []) (kind : MessageKind) :
    movedBy kind ctx = .ok .empty := by
  have hr : ∀ excluded, Settlement.reconcile ctx.log excluded = .ok [] := by
    intro excluded
    unfold Settlement.reconcile Settlement.attributed MessageLog.eventsOf
    rw [h]
    rfl
  unfold movedBy transfersUnder
  cases settlement? ctx.unbondedPool kind with
  | none => rfl
  | some p =>
    simp only [hr]
    rfl

theorem map_eq_error_of_declare {fault : Fault} (h : declare kind payload = .error fault)
    (ctx : Context) : map kind payload ctx = .error fault := by
  rw [map_eq, h]
  rfl

/-! ## Categories -/

/-- The kinds that tell what was sent. -/
def sends : List MessageKind :=
  [.bankSend, .bankMultiSend, .distributionWithdrawValidatorCommission, .govDeposit,
    .govSubmitProposal]

/-- The kinds that tell what was rewarded. -/
def rewards : List MessageKind :=
  [.distributionWithdrawDelegatorReward, .distributionFundCommunityPool, .stakingDelegate,
    .stakingBeginRedelegate, .stakingUndelegate]

/-- The recipients that do not count for a kind: freed coins pass through the pool, which is no
reward. -/
def passedBy (kind : MessageKind) (pool : String) : List String :=
  if kind = .stakingUndelegate then [pool] else []

/-- The transfers of an event are what a log moved, under one category; nothing stands there if
nothing was moved. -/
def HoldsMoved (e : Event) (category : String) (log : MessageLog) (excluded : List String) : Prop :=
  ∃ moved, Settlement.reconcile log excluded = .ok moved ∧
    e.transfers = if moved = [] then .empty else .single category moved

theorem settlement?_of_mem_sends (pool : String) (h : kind ∈ sends) :
    settlement? pool kind = some ("send", []) := by
  cases kind <;> first | rfl | exact absurd h (by decide)

theorem settlement?_of_mem_rewards (pool : String) (h : kind ∈ rewards) :
    settlement? pool kind = some ("reward", passedBy kind pool) := by
  cases kind <;> first | rfl | exact absurd h (by decide)

theorem settlement?_of_notMem (pool : String) (hs : kind ∉ sends) (hr : kind ∉ rewards) :
    settlement? pool kind = none := by
  cases kind <;> first | rfl | exact absurd (by decide) hs | exact absurd (by decide) hr

theorem holdsMoved_of_map {category : String} {excluded : List String}
    (hs : settlement? ctx.unbondedPool kind = some (category, excluded))
    (h : map kind payload ctx = .ok e) : HoldsMoved e category ctx.log excluded := by
  have hm := mapError_eq_ok.1 (map_eq_ok_iff.1 h).2
  rw [hs] at hm
  obtain ⟨moved, hr, ht⟩ := Outcome.map_eq_ok.1 hm
  exact ⟨moved, hr, ht.symm⟩

/-- Freed coins pass through the pool, which is told no reward. -/
theorem id_ne_pool_of_holdsMoved {log : MessageLog} {pool : String}
    (h : HoldsMoved e "reward" log (passedBy .stakingUndelegate pool)) {moved : List Transfer}
    (hg : e.transfers.get? "reward" = some moved) {t : Transfer} (ht : t ∈ moved) :
    t.account.id ≠ pool := by
  obtain ⟨received, hr, he⟩ := h
  rw [he] at hg
  split at hg
  · cases hg
  · have hm : some received = some moved := hg
    obtain rfl := Option.some.inj hm
    have hn := Settlement.notMem_excluded_of_reconcile hr ht
    exact fun hp => hn (List.mem_singleton.2 hp)

/-! ## What logs decide -/

/-- Two logs give a message the same event but for its transfers, which are what the log moved
under the category of the kind. A kind without a category has one outcome with all logs. An error
that a message has with a log without events it has with every log, and if it has an event with
some log it has one with a log without events. -/
theorem logs_settle_transfers (kind : MessageKind) (payload : Bytes) (ctx ctx' : Context) :
    (∀ e e', map kind payload ctx = .ok e → map kind payload ctx' = .ok e' →
      { e with transfers := .empty } = { e' with transfers := .empty }) ∧
    (∀ e, map kind payload ctx = .ok e →
      (kind ∈ sends → HoldsMoved e "send" ctx.log []) ∧
      (kind ∈ rewards → HoldsMoved e "reward" ctx.log (passedBy kind ctx.unbondedPool)) ∧
      (kind = .stakingUndelegate → ∀ moved, e.transfers.get? "reward" = some moved →
        ∀ t ∈ moved, t.account.id ≠ ctx.unbondedPool)) ∧
    (kind ∉ sends → kind ∉ rewards →
      map kind payload ctx = map kind payload ctx' ∧
        ∀ e, map kind payload ctx = .ok e → e.transfers = .empty) ∧
    (ctx.log.events = [] →
      (∀ fault, map kind payload ctx = .error fault → map kind payload ctx' = .error fault) ∧
        ((∃ e', map kind payload ctx' = .ok e') → ∃ e, map kind payload ctx = .ok e)) := by
  refine ⟨?_, ?_, ?_, ?_⟩
  · intro e e' h h'
    have hd := (map_eq_ok_iff.1 h).1
    rw [(map_eq_ok_iff.1 h').1] at hd
    exact (Except.ok.inj hd).symm
  · intro e h
    have hreward : kind ∈ rewards →
        HoldsMoved e "reward" ctx.log (passedBy kind ctx.unbondedPool) :=
      fun hk => holdsMoved_of_map (settlement?_of_mem_rewards _ hk) h
    refine ⟨fun hk => holdsMoved_of_map (settlement?_of_mem_sends _ hk) h, hreward, ?_⟩
    rintro rfl moved hg t ht
    exact id_ne_pool_of_holdsMoved (hreward (by decide)) hg ht
  · intro hs hr
    have hmoved : ∀ c : Context, movedBy kind c = .ok .empty := by
      intro c
      unfold movedBy
      rw [settlement?_of_notMem _ hs hr]
      rfl
    refine ⟨?_, fun e h => ?_⟩
    · rw [map_eq, map_eq, hmoved ctx, hmoved ctx']
    · have hm := (map_eq_ok_iff.1 h).2
      rw [hmoved ctx] at hm
      exact (Except.ok.inj hm).symm
  · intro hnone
    have hmoved := movedBy_of_no_events hnone kind
    cases hd : declare kind payload with
    | error fault =>
      have he := map_eq_error_of_declare hd
      rw [he ctx, he ctx']
      exact ⟨fun _ h => h, fun h => h⟩
    | ok declared =>
      have hm : map kind payload ctx = .ok { declared with transfers := .empty } := by
        rw [map_eq, hd, hmoved]
        rfl
      rw [hm]
      exact ⟨nofun, fun _ => ⟨_, rfl⟩⟩

end ChainIndexer.Message
