import ChainIndexer.Proofs.Amount.Coins
import ChainIndexer.Proofs.Settlement.Reconciliation

/-
  Transfers of amounts that the chain printed.

  A log in which each amount of a transfer event is a printed coin list is settled, with one
  exception: the list of no coins is printed as nothing at all, and that is no amount
  (`reconcile_printed`). Zero coins are read like any others, so that an event which moves nothing
  leaves no trace (`movedBy_of_idle`).
-/

namespace ChainIndexer.Settlement

open Amount Outcome

/-! ## Printed amounts -/

/-- Each amount of a transfer event is a printed coin list. -/
def Printed (log : MessageLog) : Prop :=
  ∀ e ∈ log.eventsOf transferKind, ∀ a ∈ e.attributes, a.key = amountKey →
    ∃ coins, a.value = listText coins

/-- Each amount of the event is a printed list of zero coins, or of none. -/
def Idle (e : LogEvent) : Prop :=
  ∀ a ∈ e.attributes, a.key = amountKey →
    ∃ coins, a.value = listText coins ∧ ∀ c ∈ coins, c.count = 0

theorem mem_of_amountAt? {as : List LogAttribute} {i : Nat} {p : String × String}
    (h : amountAt? as i = some p) : ∃ a ∈ as, a.key = amountKey ∧ a.value = p.2 := by
  unfold amountAt? at h
  obtain ⟨a, ha, h⟩ := Option.bind_eq_some_iff.1 h
  split at h
  · rename_i hk
    obtain ⟨recipient, _, rfl⟩ := Option.map_eq_some_iff.1 h
    exact ⟨a, List.mem_of_getElem? ha, hk, rfl⟩
  · cases h

/-- The amounts of one event with their recipients, except those of excluded recipients. -/
def placedIn (excluded : List String) (e : LogEvent) : List (String × String) :=
  ((List.range e.attributes.length).filterMap (amountAt? e.attributes)).filter
    fun p => !excluded.contains p.1

theorem mem_of_mem_placedIn {excluded : List String} {e : LogEvent} {p : String × String}
    (h : p ∈ placedIn excluded e) : ∃ a ∈ e.attributes, a.key = amountKey ∧ a.value = p.2 := by
  obtain ⟨i, _, hi⟩ := List.mem_filterMap.1 (List.mem_filter.1 h).1
  exact mem_of_amountAt? hi

theorem placed_eq_flatMap (log : MessageLog) (excluded : List String) :
    placed log excluded = (log.eventsOf transferKind).flatMap (placedIn excluded) :=
  List.filter_flatMap

theorem exists_listText {log : MessageLog} (printed : Printed log) {excluded : List String}
    {p : String × String} (h : p ∈ placed log excluded) : ∃ coins, p.2 = listText coins := by
  rw [placed_eq_flatMap] at h
  obtain ⟨e, he, hp⟩ := List.mem_flatMap.1 h
  obtain ⟨a, ha, hk, hv⟩ := mem_of_mem_placedIn hp
  exact hv ▸ printed e he a ha hk

/-- A printed amount is at fault if it is the list of no coins. -/
theorem fault?_readCoins_listText (coins : List PrintedCoin) :
    fault? (readCoins (listText coins)) = if listText coins = "" then some .empty else none := by
  split
  · rename_i h
    rw [h, readCoins_empty]
    rfl
  · rename_i h
    rw [readCoins_listText fun hc => h (listText_eq_empty_iff.2 hc)]
    rfl

/-! ## What an event moves -/

/-- The coins of an event that are not zero, with their recipients. -/
def movedBy (excluded : List String) (e : LogEvent) : List (String × Amount) :=
  moved ((placedIn excluded e).flatMap coinsOf)

theorem moved_placed (log : MessageLog) (excluded : List String) :
    moved ((placed log excluded).flatMap coinsOf) =
      (log.eventsOf transferKind).flatMap (movedBy excluded) := by
  rw [placed_eq_flatMap, List.flatMap_assoc]
  exact List.filter_flatMap

theorem isZero_of_mem_coinsOf {p : String × String} {coins : List PrintedCoin}
    (hp : p.2 = listText coins) (zero : ∀ c ∈ coins, c.count = 0) {c : String × Amount}
    (hc : c ∈ coinsOf p) : c.2.isZero = true := by
  unfold coinsOf at hc
  rw [hp] at hc
  by_cases hn : coins = []
  · rw [listText_eq_empty_iff.2 hn] at hc
    cases hc
  · rw [readCoins_listText hn] at hc
    dsimp only at hc
    rw [List.map_map] at hc
    obtain ⟨coin, hm, rfl⟩ := List.mem_map.1 hc
    exact beq_iff_eq.2 (congrArg Int.ofNat (zero coin hm))

/-- An idle event moves nothing. -/
theorem movedBy_of_idle {e : LogEvent} (h : Idle e) (excluded : List String) :
    movedBy excluded e = [] := by
  apply List.filter_eq_nil_iff.2
  intro c hc
  obtain ⟨p, hp, hc⟩ := List.mem_flatMap.1 hc
  obtain ⟨a, ha, hk, hv⟩ := mem_of_mem_placedIn hp
  obtain ⟨coins, hl, zero⟩ := h a ha hk
  simp [isZero_of_mem_coinsOf (hv.symm.trans hl) zero hc]

/-- What adds nothing to a list may be left out of it. -/
theorem flatMap_filter_of_nil {α β : Type} {l : List α} {keep : α → Bool} {f : α → List β}
    (h : ∀ a ∈ l, keep a = false → f a = []) : (l.filter keep).flatMap f = l.flatMap f := by
  induction l with
  | nil => rfl
  | cons a l ih =>
    have hl := ih fun b hb => h b (List.mem_cons_of_mem a hb)
    rw [List.filter_cons, List.flatMap_cons]
    cases hk : keep a with
    | true => rw [if_pos rfl, List.flatMap_cons, hl]
    | false => rw [if_neg Bool.false_ne_true, hl, h a List.mem_cons_self hk, List.nil_append]

/-! ## Settling printed amounts -/

/-- The log without the events that are not kept. -/
def keepEvents (keep : LogEvent → Bool) (log : MessageLog) : MessageLog :=
  { log with events := log.events.filter keep }

theorem eventsOf_keepEvents (keep : LogEvent → Bool) (log : MessageLog) (kind : String) :
    (keepEvents keep log).eventsOf kind = (log.eventsOf kind).filter keep :=
  List.filter_comm ..

theorem placed_keepEvents_subset (keep : LogEvent → Bool) (log : MessageLog)
    (excluded : List String) : placed (keepEvents keep log) excluded ⊆ placed log excluded := by
  rw [placed_eq_flatMap, placed_eq_flatMap, eventsOf_keepEvents]
  intro p hp
  obtain ⟨e, he, hp⟩ := List.mem_flatMap.1 hp
  exact List.mem_flatMap.2 ⟨e, (List.mem_filter.1 he).1, hp⟩

theorem reconcile_eq_ok_iff {log : MessageLog} {excluded : List String}
    {transfers : List Transfer} : reconcile log excluded = .ok transfers ↔
      (∀ p ∈ placed log excluded, fault? (readCoins p.2) = none) ∧
        transfers = group (moved ((placed log excluded).flatMap coinsOf)) := by
  rw [← List.findSome?_eq_none_iff, reconcile_eq]
  split
  · rename_i fault h
    simp [h]
  · rename_i h
    simp [h, eq_comm]

/-- Where all that can be found is one thing, it is found if it is there. -/
theorem findSome?_eq_some_iff_of_ite {α β : Type} {l : List α} {f : α → Option β} {c : α → Prop}
    [DecidablePred c] {b b' : β} (h : ∀ a ∈ l, f a = if c a then some b else none) :
    l.findSome? f = some b' ↔ b' = b ∧ ∃ a ∈ l, c a := by
  have found : ∀ {b'}, l.findSome? f = some b' → b' = b ∧ ∃ a ∈ l, c a := by
    intro b' hs
    obtain ⟨a, ha, hs⟩ := List.exists_of_findSome?_eq_some hs
    rw [h a ha] at hs
    split at hs
    · rename_i hc
      exact ⟨(Option.some.inj hs).symm, a, ha, hc⟩
    · cases hs
  refine ⟨found, ?_⟩
  rintro ⟨rfl, a, ha, hc⟩
  cases hs : l.findSome? f with
  | none =>
    have hn := List.findSome?_eq_none_iff.1 hs a ha
    rw [h a ha, if_pos hc] at hn
    cases hn
  | some b'' => rw [(found hs).1]

/-- A log whose amounts the chain printed is settled unless an attributed amount is the list of no
coins, and that is the only fault. In a settled log the events whose coins are all zero contribute
nothing: without any of them it is settled in the same way, and each account has what the other
events moved to it. -/
theorem reconcile_printed (log : MessageLog) (excluded : List String) (printed : Printed log) :
    (∀ fault, reconcile log excluded = .error fault ↔
      fault = .empty ∧ ∃ p ∈ placed log excluded, p.2 = "") ∧
    ((∃ transfers, reconcile log excluded = .ok transfers) ↔
      ∀ p ∈ placed log excluded, p.2 ≠ "") ∧
    ∀ keep : LogEvent → Bool, (∀ e ∈ log.eventsOf transferKind, keep e = false → Idle e) →
      ∀ transfers, reconcile log excluded = .ok transfers →
        reconcile (keepEvents keep log) excluded = .ok transfers ∧
          Settles excluded ((placed (keepEvents keep log) excluded).flatMap coinsOf) transfers := by
  have hf : ∀ p ∈ placed log excluded,
      fault? (readCoins p.2) = if p.2 = "" then some .empty else none := by
    intro p hp
    obtain ⟨coins, hc⟩ := exists_listText printed hp
    rw [hc]
    exact fault?_readCoins_listText coins
  refine ⟨fun fault => ?_, ?_, fun keep idle transfers h => ?_⟩
  · rw [eq_error_iff, fault?_reconcile, findSome?_eq_some_iff_of_ite hf]
  · rw [exists_ok_iff, fault?_reconcile, List.findSome?_eq_none_iff]
    refine forall₂_congr fun p hp => ?_
    rw [hf p hp]
    simp
  · have hk : reconcile (keepEvents keep log) excluded = .ok transfers := by
      rw [reconcile_eq_ok_iff] at h ⊢
      refine ⟨fun p hp => h.1 p (placed_keepEvents_subset keep log excluded hp), ?_⟩
      rw [h.2, moved_placed, moved_placed, eventsOf_keepEvents,
        flatMap_filter_of_nil fun e he hk => movedBy_of_idle (idle e he hk) excluded]
    refine ⟨hk, ?_⟩
    rw [eq_group_of_reconcile hk]
    exact settles_group fun c hc => notMem_excluded_of_mem_coins hc

/-- Some coins of one denomination, as they are printed. -/
def printedStake (count : Nat) : PrintedCoin where
  count := count
  denom := "stake"
  letter := ⟨'s', rfl, rfl⟩
  comma := by decide
  blank := by
    rintro c ⟨⟩
    rfl

/-- A log with a transfer to one account and a transfer of zero coins to another. -/
def zeroForBob : MessageLog :=
  ⟨0, "", [⟨"transfer", [⟨"recipient", "alice"⟩, ⟨"amount", "5stake"⟩]⟩,
    ⟨"transfer", [⟨"recipient", "bob"⟩, ⟨"amount", "0stake"⟩]⟩]⟩

theorem reconcile_printed_zeroForBob :
    Printed zeroForBob ∧
    (∀ e ∈ zeroForBob.eventsOf transferKind,
      decide (⟨"recipient", "alice"⟩ ∈ e.attributes) = false → Idle e) ∧
    reconcile zeroForBob [] = .ok [.plain "alice" [⟨"5stake", 5, 0, "stake"⟩]] ∧
    reconcile (keepEvents (⟨"recipient", "alice"⟩ ∈ ·.attributes) zeroForBob) [] =
      .ok [.plain "alice" [⟨"5stake", 5, 0, "stake"⟩]] := by
  have hp : Printed zeroForBob := by
    have hv : ∀ e ∈ zeroForBob.eventsOf transferKind, ∀ a ∈ e.attributes, a.key = amountKey →
        a.value = "5stake" ∨ a.value = "0stake" := by decide
    intro e he a ha hk
    rcases hv e he a ha hk with hv | hv
    · exact ⟨[printedStake 5], hv⟩
    · exact ⟨[printedStake 0], hv⟩
  have hi : ∀ e ∈ zeroForBob.eventsOf transferKind,
      decide (⟨"recipient", "alice"⟩ ∈ e.attributes) = false → Idle e := by
    have hv : ∀ e ∈ zeroForBob.eventsOf transferKind,
        decide (⟨"recipient", "alice"⟩ ∈ e.attributes) = false →
          ∀ a ∈ e.attributes, a.key = amountKey → a.value = "0stake" := by decide
    intro e he hd a ha hk
    exact ⟨[printedStake 0], hv e he hd a ha hk, List.forall_mem_singleton.2 rfl⟩
  have hr : reconcile zeroForBob [] = .ok [.plain "alice" [⟨"5stake", 5, 0, "stake"⟩]] := by rfl
  exact ⟨hp, hi, hr, ((reconcile_printed zeroForBob [] hp).2.2 _ hi _ hr).1⟩

/-- A log with a transfer of no coins. -/
def nothingMoved : MessageLog :=
  ⟨0, "", [⟨"transfer", [⟨"recipient", "alice"⟩, ⟨"amount", ""⟩]⟩]⟩

theorem reconcile_nothingMoved :
    Printed nothingMoved ∧ reconcile nothingMoved [] = .error .empty := by
  have hv : ∀ e ∈ nothingMoved.eventsOf transferKind, ∀ a ∈ e.attributes, a.key = amountKey →
      a.value = "" := by decide
  exact ⟨fun e he a ha hk => ⟨[], hv e he a ha hk⟩, by rfl⟩

end ChainIndexer.Settlement
