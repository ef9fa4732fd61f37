import ChainIndexer.Range.Reference

/-
  What the reference of a range looks like.

  `UpToFailure` says without recursion what some heights have to deliver: the data of all of them if
  none fails, else the data of those before the first that fails and then one error that names it.
  Exactly one list is so (`upToFailure_iff`). Nothing follows an error, so that a list which begins
  the reference and holds an error is all of it (`eq_inOrder_of_error`).
-/

namespace ChainIndexer.Range

variable {α : Type} {fetch : Nat → Except Error α}

/-- The results of some heights one after another, up to the first failure. -/
def UpToFailure (fetch : Nat → Except Error α) (heights : List Nat)
    (items : List (RangeItem α)) : Prop :=
  (∃ as : List α, heights.map fetch = as.map .ok ∧ items = as.map .ok) ∨
  ∃ (before : List Nat) (height : Nat) (after : List Nat) (as : List α) (e : Error),
    heights = before ++ height :: after ∧ before.map fetch = as.map .ok ∧
      fetch height = .error e ∧ items = as.map .ok ++ [.error (.range height e)]

theorem upToFailure_inOrder (fetch : Nat → Except Error α) (heights : List Nat) :
    UpToFailure fetch heights (inOrder fetch heights) := by
  induction heights with
  | nil => exact .inl ⟨[], rfl, rfl⟩
  | cons h rest ih =>
    cases hf : fetch h with
    | error e =>
      refine .inr ⟨[], h, rest, [], e, rfl, rfl, hf, ?_⟩
      simp only [inOrder, hf]
      rfl
    | ok a =>
      have hi : inOrder fetch (h :: rest) = .ok a :: inOrder fetch rest := by
        simp only [inOrder, hf]
      rcases ih with ⟨as, hm, he⟩ | ⟨before, height, after, as, e, hs, hm, hh, he⟩
      · refine .inl ⟨a :: as, ?_, ?_⟩
        · rw [List.map_cons, hf, hm, List.map_cons]
        · rw [hi, he, List.map_cons]
      · refine .inr ⟨h :: before, height, after, a :: as, e, ?_, ?_, hh, ?_⟩
        · rw [hs, List.cons_append]
        · rw [List.map_cons, hf, hm, List.map_cons]
        · rw [hi, he, List.map_cons, List.cons_append]

/-- Some heights have one list of results up to the first failure. -/
theorem upToFailure_iff {heights : List Nat} {items : List (RangeItem α)} :
    UpToFailure fetch heights items ↔ items = inOrder fetch heights := by
  constructor
  · intro h
    rcases h with ⟨as, hm, he⟩ | ⟨before, height, after, as, e, hs, hm, hh, he⟩
    · have hi := inOrder_append_of_ok fetch hm []
      rw [List.append_nil] at hi
      rw [hi, he]
      exact (List.append_nil _).symm
    · rw [hs, inOrder_append_of_ok fetch hm, he]
      simp only [inOrder, hh]
  · intro h
    rw [h]
    exact upToFailure_inOrder fetch heights

/-- Whatever begins the results of some heights and holds an error is all of them. -/
theorem eq_inOrder_of_error {heights : List Nat} {items : List (RangeItem α)}
    (hp : items <+: inOrder fetch heights) {e : Error} (he : .error e ∈ items) :
    items = inOrder fetch heights := by
  induction heights generalizing items with
  | nil => exact List.prefix_nil.1 hp
  | cons h rest ih =>
    cases items with
    | nil => simp at he
    | cons x items =>
      cases hf : fetch h with
      | error e' =>
        simp only [inOrder, hf] at hp ⊢
        obtain ⟨hx, hn⟩ := List.cons_prefix_cons.1 hp
        rw [hx, List.prefix_nil.1 hn]
      | ok a =>
        simp only [inOrder, hf] at hp ⊢
        obtain ⟨hx, hr⟩ := List.cons_prefix_cons.1 hp
        rw [hx] at he ⊢
        rw [ih hr (by simpa using he)]

end ChainIndexer.Range
