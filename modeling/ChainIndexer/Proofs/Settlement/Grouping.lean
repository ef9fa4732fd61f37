import Mathlib.Data.List.Induction
import ChainIndexer.Settlement

/-
  Coins put together by account.

  `group` makes one transfer of all coins of an account, in the order in which the accounts come
  first. Adding amounts of an account to such transfers gives those of the coins with these amounts
  behind them (`addAmounts_group`), so that transfers which grow one attributed amount at a time are
  at every moment the coins read so far.
-/

namespace ChainIndexer.Settlement

/-! ## Coins with their accounts -/

/-- The coins that are not zero. -/
def moved (coins : List (String × Amount)) : List (String × Amount) :=
  coins.filter fun c => !c.2.isZero

/-- The coins of one account. -/
def ofAccount (id : String) (coins : List (String × Amount)) : List Amount :=
  (coins.filter (·.1 == id)).map Prod.snd

/-- The accounts of some coins, in the order in which they come first. -/
def accounts (coins : List (String × Amount)) : List String :=
  (coins.map Prod.fst).eraseDups

theorem moved_append (coins more : List (String × Amount)) :
    moved (coins ++ more) = moved coins ++ moved more :=
  List.filter_append ..

theorem ofAccount_append (id : String) (coins more : List (String × Amount)) :
    ofAccount id (coins ++ more) = ofAccount id coins ++ ofAccount id more := by
  unfold ofAccount
  rw [List.filter_append, List.map_append]

theorem ofAccount_map_self (id : String) (amounts : List Amount) :
    ofAccount id (amounts.map fun a => (id, a)) = amounts := by
  unfold ofAccount
  rw [List.filter_eq_self.2 (by simp), List.map_map]
  exact List.map_id amounts

theorem ofAccount_map_of_ne {id other : String} (h : id ≠ other) (amounts : List Amount) :
    ofAccount other (amounts.map fun a => (id, a)) = [] := by
  unfold ofAccount
  rw [List.filter_eq_nil_iff.2 (by simp [h]), List.map_nil]

theorem ofAccount_moved (id : String) (coins : List (String × Amount)) :
    ofAccount id (moved coins) = (ofAccount id coins).filter fun a => !a.isZero := by
  unfold ofAccount moved
  rw [List.filter_map, List.filter_filter, List.filter_filter]
  simp only [Function.comp_apply, Bool.and_comm]

theorem ofAccount_ne_nil_iff (id : String) (coins : List (String × Amount)) :
    ofAccount id coins ≠ [] ↔ id ∈ accounts coins := by
  unfold ofAccount accounts
  simp

theorem eraseDups_append_replicate (ids : List String) (id : String) (n : Nat) :
    (ids ++ List.replicate (n + 1) id).eraseDups =
      if id ∈ ids then ids.eraseDups else ids.eraseDups ++ [id] := by
  rw [List.eraseDups_append]
  unfold List.removeAll
  by_cases h : id ∈ ids
  · rw [if_pos h, List.filter_replicate_of_neg (by simpa using h), List.eraseDups_nil,
      List.append_nil]
  · rw [if_neg h, List.filter_replicate_of_pos (by simpa using h), List.replicate_succ,
      List.eraseDups_cons, List.filter_replicate_of_neg (by simp), List.eraseDups_nil]

theorem eraseDups_nodup (ids : List String) : ids.eraseDups.Nodup := by
  induction ids using List.reverseRecOn with
  | nil => exact List.nodup_nil
  | append_singleton ids id ih =>
    rw [← List.replicate_one, eraseDups_append_replicate]
    split
    · exact ih
    · rename_i h
      rw [List.nodup_append]
      refine ⟨ih, List.pairwise_singleton _ _, ?_⟩
      intro a ha b hb hab
      rw [hab, List.mem_singleton.1 hb, List.mem_eraseDups] at ha
      exact h ha

theorem accounts_nodup (coins : List (String × Amount)) : (accounts coins).Nodup :=
  eraseDups_nodup _

theorem accounts_append {amounts : List Amount} (h : amounts ≠ []) (id : String)
    (coins : List (String × Amount)) :
    accounts (coins ++ amounts.map fun a => (id, a)) =
      if id ∈ accounts coins then accounts coins else accounts coins ++ [id] := by
  obtain ⟨a, rest, rfl⟩ := List.exists_cons_of_ne_nil h
  have hc : ((a :: rest).map fun a => (id, a)).map Prod.fst =
      List.replicate (rest.length + 1) id := by
    rw [List.map_map]
    exact List.map_const' ..
  unfold accounts
  rw [List.map_append, hc, eraseDups_append_replicate]
  simp only [List.mem_eraseDups]

/-! ## Putting together -/

/-- A transfer for each of some accounts. -/
def transfersTo (ids : List String) (amountsOf : String → List Amount) : List Transfer :=
  ids.map fun id => .plain id (amountsOf id)

/-- Some coins, put together by account. -/
def group (coins : List (String × Amount)) : List Transfer :=
  transfersTo (accounts coins) fun id => ofAccount id coins

theorem transfersTo_cons (id : String) (ids : List String) (amountsOf : String → List Amount) :
    transfersTo (id :: ids) amountsOf = .plain id (amountsOf id) :: transfersTo ids amountsOf :=
  rfl

/-- More amounts of an account that is not among them change no transfer. -/
theorem transfersTo_of_notMem {id : String} {ids : List String} (h : id ∉ ids)
    (amounts : List Amount) (amountsOf : String → List Amount) :
    (transfersTo ids fun other => amountsOf other ++ if other = id then amounts else []) =
      transfersTo ids amountsOf := by
  unfold transfersTo
  apply List.map_congr_left
  intro other hother
  have hne : other ≠ id := fun he => h (he ▸ hother)
  simp only [if_neg hne, List.append_nil]

theorem addAmounts_plain_self (id : String) (amounts more : List Amount) (rest : List Transfer) :
    addAmounts id more (.plain id amounts :: rest) = .plain id (amounts ++ more) :: rest :=
  if_pos rfl

theorem addAmounts_plain_of_ne {other id : String} (h : other ≠ id) (amounts more : List Amount)
    (rest : List Transfer) :
    addAmounts id more (.plain other amounts :: rest) =
      .plain other amounts :: addAmounts id more rest :=
  if_neg h

theorem addAmounts_of_notMem {id : String} {ids : List String} (h : id ∉ ids)
    (amounts : List Amount) (amountsOf : String → List Amount) :
    addAmounts id amounts (transfersTo ids amountsOf) =
      transfersTo ids amountsOf ++ [.plain id amounts] := by
  induction ids with
  | nil => rfl
  | cons other ids ih =>
    have hne : other ≠ id := fun he => h (he ▸ List.mem_cons_self)
    rw [transfersTo_cons, addAmounts_plain_of_ne hne,
      ih fun hmem => h (List.mem_cons_of_mem other hmem)]
    rfl

theorem addAmounts_of_mem {id : String} {ids : List String} (h : id ∈ ids) (hn : ids.Nodup)
    (amounts : List Amount) (amountsOf : String → List Amount) :
    addAmounts id amounts (transfersTo ids amountsOf) =
      transfersTo ids fun other => amountsOf other ++ if other = id then amounts else [] := by
  induction ids with
  | nil => cases h
  | cons other ids ih =>
    obtain ⟨hother, hn⟩ := List.nodup_cons.1 hn
    rw [transfersTo_cons, transfersTo_cons]
    by_cases he : other = id
    · rw [he] at hother ⊢
      rw [addAmounts_plain_self, if_pos rfl, transfersTo_of_notMem hother]
    · have hmem : id ∈ ids := (List.mem_cons.1 h).resolve_left fun h => he h.symm
      rw [addAmounts_plain_of_ne he, if_neg he, List.append_nil, ih hmem hn]

/-- Adding amounts to what some coins come to puts them behind these coins. -/
theorem addAmounts_group {amounts : List Amount} (h : amounts ≠ []) (id : String)
    (coins : List (String × Amount)) :
    addAmounts id amounts (group coins) = group (coins ++ amounts.map fun a => (id, a)) := by
  have hof : (fun other => ofAccount other (coins ++ amounts.map fun a => (id, a))) =
      fun other => ofAccount other coins ++ if other = id then amounts else [] := by
    funext other
    rw [ofAccount_append]
    split
    · rename_i he
      rw [he, ofAccount_map_self]
    · rename_i he
      rw [ofAccount_map_of_ne (Ne.symm he)]
  unfold group
  rw [accounts_append h, hof]
  by_cases hm : id ∈ accounts coins
  · rw [if_pos hm, addAmounts_of_mem hm (accounts_nodup coins)]
  · have hnil : ofAccount id coins = [] := by
      by_contra hc
      exact hm ((ofAccount_ne_nil_iff id coins).1 hc)
    have happ : ∀ f, transfersTo (accounts coins ++ [id]) f =
        transfersTo (accounts coins) f ++ [.plain id (f id)] := fun f => List.map_append
    rw [if_neg hm, addAmounts_of_notMem hm, happ, transfersTo_of_notMem hm, hnil, if_pos rfl,
      List.nil_append]

/-! ## What a group holds -/

/-- The amounts that some transfers list for an account. -/
def listed (id : String) (transfers : List Transfer) : List Amount :=
  (transfers.filter (·.account.id == id)).flatMap (·.amounts)

theorem ids_group (coins : List (String × Amount)) :
    (group coins).map (·.account.id) = accounts coins := by
  unfold group transfersTo
  rw [List.map_map]
  exact List.map_id _

theorem mem_group {coins : List (String × Amount)} {t : Transfer} (h : t ∈ group coins) :
    t.account.id ∈ accounts coins ∧ t = .plain t.account.id (ofAccount t.account.id coins) := by
  unfold group transfersTo at h
  obtain ⟨id, hid, rfl⟩ := List.mem_map.1 h
  exact ⟨hid, rfl⟩

theorem listed_group (id : String) (coins : List (String × Amount)) :
    listed id (group coins) = ofAccount id coins := by
  have hf : (group coins).filter (·.account.id == id) =
      transfersTo (List.replicate ((accounts coins).count id) id) fun id => ofAccount id coins := by
    rw [← List.filter_beq]
    exact List.filter_map ..
  unfold listed
  rw [hf]
  by_cases hm : id ∈ accounts coins
  · rw [(accounts_nodup coins).count, if_pos hm]
    exact List.append_nil _
  · rw [List.count_eq_zero_of_not_mem hm]
    by_contra hc
    exact hm ((ofAccount_ne_nil_iff id coins).1 (Ne.symm hc))

end ChainIndexer.Settlement
