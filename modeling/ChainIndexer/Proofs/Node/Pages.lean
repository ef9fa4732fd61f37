import ChainIndexer.Node.Client
import ChainIndexer.Proofs.Node.Retrying

/-
  Going through pages.

  A question may be put up to three times before its answer is final, and each time it is noted
  (`asked_read`). What goes from page to page comes to an end at a page that fails and at one that
  names no other; the number of pages that are allowed makes no difference beyond that
  (`gather_of_error`, `gather_of_last`, `gather_of_more`).
-/

namespace ChainIndexer

/-! ## Calls that are made again -/

namespace Attempts

variable {σ α β : Type} {call : σ → Except Error α × σ}

/-- What every call keeps is kept by any number of them. -/
theorem stateAfter_keeps {P : σ → Prop} (h : ∀ s, P s → P (call s).2) (k : Nat) {s : σ}
    (hs : P s) : P (stateAfter call k s) := by
  induction k generalizing s with
  | zero => exact hs
  | succ k ih => exact ih (h s hs)

/-- What every call keeps is kept. -/
theorem startingAt_keeps {P : σ → Prop} (h : ∀ s, P s → P (call s).2) (n more : Nat) {s : σ}
    (hs : P s) : P (startingAt call n more s).state := by
  obtain ⟨k, -, -, -, hk⟩ := startingAt_eq call n more s
  rw [hk]
  exact stateAfter_keeps h k hs

/-- A value that comes back is that of one of the calls. -/
theorem exists_of_startingAt {P : σ → Prop} (h : ∀ s, P s → P (call s).2) {n more : Nat} {s : σ}
    (hs : P s) {a : α} (ha : (startingAt call n more s).result = .ok a) :
    ∃ u, P u ∧ (call u).1 = .ok a := by
  obtain ⟨k, -, -, hk, -⟩ := startingAt_eq call n more s
  exact ⟨stateAfter call (k - 1) s, stateAfter_keeps h (k - 1) hs, hk.symm.trans ha⟩

/-- What every call notes once is noted once for each of any number of calls. -/
theorem stateAfter_notes (notes : σ → List β) {x : β} (h : ∀ s, notes (call s).2 = notes s ++ [x])
    (k : Nat) (s : σ) : notes (stateAfter call k s) = notes s ++ List.replicate k x := by
  induction k generalizing s with
  | zero => exact (List.append_nil _).symm
  | succ k ih =>
    refine (ih (call s).2).trans ?_
    rw [h, List.append_assoc, List.singleton_append, List.replicate_succ]

/-- What every call notes once is noted once for each call. -/
theorem startingAt_notes (notes : σ → List β) {x : β} (h : ∀ s, notes (call s).2 = notes s ++ [x])
    (n more : Nat) (s : σ) :
    ∃ k, 1 ≤ k ∧ k ≤ more + 1 ∧
      notes (startingAt call n more s).state = notes s ++ List.replicate k x := by
  obtain ⟨k, hk, hle, -, hs⟩ := startingAt_eq call n more s
  rw [hs]
  exact ⟨k, hk, hle, stateAfter_notes notes h k s⟩

end Attempts

namespace Client

open Node (Asked Reply)

variable {σ α : Type}

/-! ## Questions -/

theorem node_ask (limit : Nat) (asked : Asked) (question : σ → Reply α × σ) (s : Session σ) :
    (ask limit asked question s).2.node = (question s.node).2 := by
  unfold ask
  dsimp only
  split
  · rfl
  · rfl

theorem asked_ask (limit : Nat) (asked : Asked) (question : σ → Reply α × σ) (s : Session σ) :
    (ask limit asked question s).2.asked = s.asked ++ [asked] := by
  unfold ask
  dsimp only
  split
  · rfl
  · rfl

/-- A question is put once at least, and no more often than calls are made again. -/
theorem asked_read (limit : Nat) (asked : Asked) (question : σ → Reply α × σ) (s : Session σ) :
    ∃ k, 1 ≤ k ∧ k ≤ Attempts.maxCalls ∧
      (read limit asked question s).2.asked = s.asked ++ List.replicate k asked :=
  Attempts.startingAt_notes Session.asked (asked_ask limit asked question) 1
    (Attempts.maxCalls - 1) s

/-! ## From page to page -/

variable {κ : Type} {page : κ → Call σ (List α × Option κ)} {key next : κ} {s u v : Session σ}
  {items : List α} {limit k : Nat}

theorem gather_of_error {e : Error} (h : page key s = (.error e, u)) (hl : 1 ≤ limit) :
    gather page limit key s = (some (.error e), u) := by
  obtain ⟨limit, rfl⟩ := Nat.exists_eq_add_of_le' hl
  rw [gather, h]

theorem gather_of_last (h : page key s = (.ok (items, none), u)) (hl : 1 ≤ limit) :
    gather page limit key s = (some (.ok items), u) := by
  obtain ⟨limit, rfl⟩ := Nat.exists_eq_add_of_le' hl
  rw [gather, h]

/-- Behind a page that names another, `k` more pages are enough if they are from there on. -/
theorem gather_of_more {r : Except Error (List α)} (h : page key s = (.ok (items, some next), u))
    (rest : ∀ n, k ≤ n → gather page n next u = (some r, v)) (hl : k + 1 ≤ limit) :
    gather page limit key s = (some (r.map (items ++ ·)), v) := by
  obtain ⟨limit, rfl⟩ := Nat.exists_eq_add_of_le' (Nat.le_trans (Nat.le_add_left 1 k) hl)
  rw [gather, h]
  dsimp only
  rw [rest limit (Nat.le_of_succ_le_succ hl)]
  rfl

end Client

end ChainIndexer
