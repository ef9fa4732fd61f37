import ChainIndexer.Proofs.Outcome
import ChainIndexer.Proofs.Amount.Value
import ChainIndexer.Proofs.Settlement.Attribution
import ChainIndexer.Proofs.Settlement.Grouping

/-
  What each account received.

  `reconcile` reads one attributed amount after the other, up to the first that is none. What it has
  come to is at every moment the `group` of the coins read so far that are not zero
  (`foldlM_settle`). So each of these coins is in the transfers once, with its account and in the
  order of emission, and no currency loses anything (`reconcile_settles`).
-/

namespace ChainIndexer.Settlement

open Outcome

/-- The coins of an attributed amount, each with its recipient. -/
def coinsOf (p : String × String) : List (String × Amount) :=
  match Amount.readCoins p.2 with
  | .ok coins => coins.map fun a => (p.1, a)
  | .error _ => []

theorem settle_group {p : String × String} {amounts : List Amount}
    (h : Amount.readCoins p.2 = .ok amounts) (coins : List (String × Amount)) :
    settle (group (moved coins)) p = .ok (group (moved (coins ++ coinsOf p))) := by
  have hc : moved (coinsOf p) = (amounts.filter fun a => !a.isZero).map fun a => (p.1, a) := by
    unfold coinsOf moved
    rw [h, List.filter_map]
    rfl
  rw [moved_append, hc]
  unfold settle
  rw [h]
  by_cases hz : (amounts.filter fun a => !a.isZero) = []
  · rw [hz, List.map_nil, List.append_nil]
    exact congrArg Except.ok (if_pos hz)
  · rw [← addAmounts_group hz]
    exact congrArg Except.ok (if_neg hz)

/-- After any attributed amounts the transfers are the coins read so far, put together. -/
theorem foldlM_settle (pairs : List (String × String)) (coins : List (String × Amount)) :
    pairs.foldlM settle (group (moved coins)) =
      match pairs.findSome? fun p => fault? (Amount.readCoins p.2) with
      | some fault => .error fault
      | none => .ok (group (moved (coins ++ pairs.flatMap coinsOf))) := by
  -- `coins` are those of the amounts that have been read, so each amount puts its own behind them.
  induction pairs generalizing coins with
  | nil =>
    rw [List.flatMap_nil, List.append_nil]
    rfl
  | cons p pairs ih =>
    rw [List.foldlM_cons, List.findSome?_cons, List.flatMap_cons]
    cases h : Amount.readCoins p.2 with
    | error fault =>
      unfold settle
      rw [h]
      rfl
    | ok amounts =>
      rw [settle_group h, ← List.append_assoc]
      exact ih (coins ++ coinsOf p)

theorem reconcile_eq (log : MessageLog) (excluded : List String) :
    reconcile log excluded =
      match (placed log excluded).findSome? fun p => fault? (Amount.readCoins p.2) with
      | some fault => .error fault
      | none => .ok (group (moved ((placed log excluded).flatMap coinsOf))) := by
  rw [← attributed_eq_placed]
  exact foldlM_settle (attributed log excluded) []

theorem fault?_reconcile (log : MessageLog) (excluded : List String) :
    fault? (reconcile log excluded) =
      (placed log excluded).findSome? fun p => fault? (Amount.readCoins p.2) := by
  rw [reconcile_eq]
  split
  · rename_i h
    exact h.symm
  · rename_i h
    exact h.symm

theorem eq_group_of_reconcile {log : MessageLog} {excluded : List String}
    {transfers : List Transfer} (h : reconcile log excluded = .ok transfers) :
    transfers = group (moved ((placed log excluded).flatMap coinsOf)) := by
  rw [reconcile_eq] at h
  split at h
  · cases h
  · cases h
    rfl

/-- What the transfers of some coins are like. -/
structure Settles (excluded : List String) (coins : List (String × Amount))
    (transfers : List Transfer) : Prop where
  /-- No account comes twice. -/
  distinct : (transfers.map (·.account.id)).Nodup
  /-- No account is excluded, none is without an amount, and only its address is known. -/
  received : ∀ t ∈ transfers,
    t.account.id ∉ excluded ∧ t.amounts ≠ [] ∧ t.account = .plain t.account.id
  /-- The accounts are in the order of their first coin that is not zero. -/
  order : transfers.map (·.account.id) = accounts (moved coins)
  /-- The amounts of an account are its coins that are not zero, in their order. -/
  amounts : ∀ id, listed id transfers = ofAccount id (moved coins)
  /-- Nothing of a currency is lost. -/
  total : ∀ id currency,
    Amount.total currency (listed id transfers) = Amount.total currency (ofAccount id coins)

theorem settles_group {excluded : List String} {coins : List (String × Amount)}
    (h : ∀ c ∈ coins, c.1 ∉ excluded) : Settles excluded coins (group (moved coins)) := by
  refine ⟨?_, ?_, ids_group _, fun id => listed_group id _, ?_⟩
  · rw [ids_group]
    exact accounts_nodup _
  · intro t ht
    obtain ⟨hid, ht⟩ := mem_group ht
    refine ⟨?_, ?_, congrArg Transfer.account ht⟩
    · unfold accounts at hid
      rw [List.mem_eraseDups] at hid
      obtain ⟨c, hc, he⟩ := List.mem_map.1 hid
      rw [← he]
      exact h c (List.mem_filter.1 hc).1
    · rw [ht]
      exact (ofAccount_ne_nil_iff _ _).2 hid
  · intro id currency
    rw [listed_group, ofAccount_moved, Amount.total_filter_not_isZero]

theorem fst_of_mem_coinsOf {p : String × String} {c : String × Amount} (h : c ∈ coinsOf p) :
    c.1 = p.1 := by
  unfold coinsOf at h
  split at h
  · obtain ⟨a, _, rfl⟩ := List.mem_map.1 h
    rfl
  · cases h

theorem notMem_excluded_of_mem_coins {log : MessageLog} {excluded : List String}
    {c : String × Amount} (h : c ∈ (placed log excluded).flatMap coinsOf) : c.1 ∉ excluded := by
  obtain ⟨p, hp, hc⟩ := List.mem_flatMap.1 h
  rw [fst_of_mem_coinsOf hc]
  exact notMem_excluded_of_mem_placed hp

/-- An excluded recipient receives nothing. -/
theorem notMem_excluded_of_reconcile {log : MessageLog} {excluded : List String}
    {transfers : List Transfer} (h : reconcile log excluded = .ok transfers) {t : Transfer}
    (ht : t ∈ transfers) : t.account.id ∉ excluded := by
  rw [eq_group_of_reconcile h] at ht
  have hid := (mem_group ht).1
  unfold accounts at hid
  rw [List.mem_eraseDups] at hid
  obtain ⟨c, hc, he⟩ := List.mem_map.1 hid
  rw [← he]
  exact notMem_excluded_of_mem_coins (List.mem_filter.1 hc).1

/-- Reconciliation has the fault of the first attributed amount that is none. Else each account has
the coins attributed to it that are not zero, and nothing more. -/
theorem reconcile_settles (log : MessageLog) (excluded : List String) :
    (∀ fault, reconcile log excluded = .error fault ↔
      (placed log excluded).findSome? (fun p => fault? (Amount.readCoins p.2)) = some fault) ∧
    ((∃ transfers, reconcile log excluded = .ok transfers) ↔
      ∀ p ∈ placed log excluded, ∃ coins, Amount.readCoins p.2 = .ok coins) ∧
    ∀ transfers, reconcile log excluded = .ok transfers →
      Settles excluded ((placed log excluded).flatMap coinsOf) transfers := by
  refine ⟨?_, ?_, ?_⟩
  · intro fault
    rw [eq_error_iff, fault?_reconcile]
  · simp only [exists_ok_iff, fault?_reconcile, List.findSome?_eq_none_iff]
  · intro transfers h
    rw [eq_group_of_reconcile h]
    apply settles_group
    intro c hc
    obtain ⟨p, hp, hc⟩ := List.mem_flatMap.1 hc
    rw [fst_of_mem_coinsOf hc]
    exact notMem_excluded_of_mem_placed hp

example :
    reconcile ⟨0, "",
      [⟨"transfer", [⟨"amount", "7x"⟩, ⟨"recipient", "a"⟩, ⟨"amount", "3x,0y"⟩,
        ⟨"recipient", "pool"⟩, ⟨"amount", "?"⟩, ⟨"recipient", "b"⟩, ⟨"amount", "1x"⟩]⟩,
       ⟨"transfer", [⟨"recipient", "a"⟩, ⟨"amount", "2y"⟩]⟩]⟩ ["pool"] =
      .ok [.plain "a" [⟨"3x", 3, 0, "x"⟩, ⟨"2y", 2, 0, "y"⟩], .plain "b" [⟨"1x", 1, 0, "x"⟩]] := by
  rfl

end ChainIndexer.Settlement
