import ChainIndexer.Error
import ChainIndexer.Block

/-
  What a range has to deliver.

  The heights of a range are fetched one after another, and the first failure ends the list with one
  error that names its height.
-/

namespace ChainIndexer

/-- A result of a range: the data of a height, or the error that ends the range. -/
abbrev RangeItem (α : Type) := Except Error α

namespace Range

/-- The results of some heights, up to the first failure. -/
def inOrder (fetch : Nat → Except Error α) : List Nat → List (RangeItem α)
  | [] => []
  | h :: rest =>
    match fetch h with
    | .ok a => .ok a :: inOrder fetch rest
    | .error e => [.error (.range h e)]

/-- The results of a range. Height 0 is never asked for. -/
def reference (fetch : Nat → Except Error α) (r : HeightRange) : List (RangeItem α) :=
  inOrder fetch r.onChain.heights

/-- All data of some results, or the first error. -/
def collect (items : List (RangeItem α)) : Except Error (List α) :=
  items.mapM id

theorem inOrder_append_of_ok (fetch : Nat → Except Error α) {hs : List Nat} {as : List α}
    (h : hs.map fetch = as.map .ok) (rest : List Nat) :
    inOrder fetch (hs ++ rest) = as.map .ok ++ inOrder fetch rest := by
  induction hs generalizing as with
  | nil =>
    cases as with
    | nil => rfl
    | cons a as => simp at h
  | cons x hs ih =>
    cases as with
    | nil => simp at h
    | cons a as =>
      simp only [List.map_cons, List.cons.injEq] at h
      simp only [List.cons_append, inOrder, h.1, List.map_cons, ih h.2]

end Range

end ChainIndexer
