import Mathlib.Data.List.Forall2
import ChainIndexer.Proofs.Outcome
import ChainIndexer.Proofs.Transaction.Refusals
import ChainIndexer.Chain.Basic

/-
  What a height is read as.

  A height has data if its block can be read and, when the block holds transactions, if these can be
  read and decoded. They stand in the data in the order in which the chain gives them
  (`fetch_eq_ok_iff`).
-/

namespace ChainIndexer

open Outcome

namespace HeightData

theorem decodeAll_cons (pool : String) (block : Block) (p : Envelope × Receipt)
    (rest : List (Envelope × Receipt)) (s : DecodeStats) :
    (decodeAll pool block (p :: rest) s).1 =
      (Transaction.decode pool p.1 p.2 block s).1 >>= fun t =>
        (decodeAll pool block rest (Transaction.decode pool p.1 p.2 block s).2).1.map (t :: ·) := by
  simp only [decodeAll]
  obtain ⟨res, s'⟩ := Transaction.decode pool p.1 p.2 block s
  cases res with
  | error e => rfl
  | ok t =>
    dsimp only
    obtain ⟨res, s''⟩ := decodeAll pool block rest s'
    cases res with
    | error e => rfl
    | ok ts => rfl

/-- The transactions of a block are decoded one by one, whatever has been counted before. -/
theorem decodeAll_eq_ok {pool : String} {block : Block} {found : List (Envelope × Receipt)}
    {s : DecodeStats} {ts : List Transaction} :
    (decodeAll pool block found s).1 = .ok ts ↔
      List.Forall₂ (fun p t => (Transaction.decode pool p.1 p.2 block .zero).1 = .ok t)
        found ts := by
  induction found generalizing s ts with
  | nil =>
    rw [List.forall₂_nil_left_iff]
    exact ⟨fun h => (Except.ok.inj h).symm, fun h => congrArg _ h.symm⟩
  | cons p rest ih =>
    rw [decodeAll_cons, bind_eq_ok, Transaction.decode_counted pool p.1 p.2 block s .zero]
    constructor
    · rintro ⟨t, ht, hr⟩
      obtain ⟨us, hu, rfl⟩ := map_eq_ok.1 hr
      exact .cons ht (ih.1 hu)
    · intro h
      cases h with
      | cons ht hr => exact ⟨_, ht, map_eq_ok.2 ⟨_, ih.2 hr, rfl⟩⟩

theorem decode_eq_ok {pool : String} {block : Block} {found : List (Envelope × Receipt)}
    {s : DecodeStats} {d : HeightData} :
    (decode pool block found s).1 = .ok d ↔
      ∃ ts, (decodeAll pool block found s).1 = .ok ts ∧ ⟨block, ts⟩ = d := by
  unfold decode
  obtain ⟨res, s'⟩ := decodeAll pool block found s
  cases res with
  | error e => simp
  | ok ts => simp

end HeightData

namespace Chain

/-- The block of a height, and its transactions in the order of the chain. -/
structure Reads (c : Chain) (pool : String) (height : Nat) (d : HeightData) : Prop where
  block : c.block height = .ok d.block
  transactions : (d.block.txCount = 0 ∧ d.transactions = []) ∨
    (d.block.txCount ≠ 0 ∧ ∃ found, c.transactions d.block = .ok found ∧
      List.Forall₂ (fun p t => (Transaction.decode pool p.1 p.2 d.block .zero).1 = .ok t)
        found d.transactions)

theorem fetch_eq_ok_iff {c : Chain} {pool : String} {height : Nat} {d : HeightData} :
    c.fetch pool height = .ok d ↔ Reads c pool height d := by
  constructor
  · intro h
    unfold fetch fetchCounted at h
    split at h
    · cases h
    rename_i block hb
    split at h
    · rename_i hz
      cases h
      exact ⟨hb, .inl ⟨hz, rfl⟩⟩
    rename_i hz
    split at h
    · cases h
    rename_i found hf
    obtain ⟨ts, ht, rfl⟩ := HeightData.decode_eq_ok.1 h
    exact ⟨hb, .inr ⟨hz, found, hf, HeightData.decodeAll_eq_ok.1 ht⟩⟩
  · rintro ⟨hb, ⟨hz, ht⟩ | ⟨hz, found, hf, ht⟩⟩
    · unfold fetch fetchCounted
      rw [hb]
      simp only [if_pos hz, ← ht]
    · unfold fetch fetchCounted
      rw [hb]
      simp only [if_neg hz, hf]
      exact HeightData.decode_eq_ok.2 ⟨_, HeightData.decodeAll_eq_ok.2 ht, rfl⟩

theorem reads_of_map_fetch {c : Chain} {pool : String} {heights : List Nat} {ds : List HeightData}
    (h : heights.map (c.fetch pool) = ds.map .ok) : List.Forall₂ (Reads c pool) heights ds := by
  have he : List.Forall₂ Eq (heights.map (c.fetch pool)) (ds.map .ok) := by
    rw [h, List.forall₂_eq_eq_eq]
  rw [List.forall₂_map_left_iff, List.forall₂_map_right_iff] at he
  exact he.imp fun _ _ => fetch_eq_ok_iff.1

end Chain

end ChainIndexer
