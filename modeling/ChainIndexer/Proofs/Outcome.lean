import Mathlib.Data.List.Forall2

/-
  Outcomes, and the faults they end with.

  `fault?` is the fault of an outcome that has no value. Steps one after another have the fault of
  the first that has one; so has a list that is gone through with `mapM` (`fault?_mapM`).
-/

namespace ChainIndexer.Outcome

variable {ε ε' α β : Type}

/-- The fault of an outcome, if it has no value. -/
def fault? : Except ε α → Option ε
  | .ok _ => none
  | .error e => some e

theorem eq_error_iff {x : Except ε α} {e : ε} : x = .error e ↔ fault? x = some e := by
  cases x with
  | ok a => simp [fault?]
  | error e' => simp [fault?]

theorem exists_ok_iff {x : Except ε α} : (∃ a, x = .ok a) ↔ fault? x = none := by
  cases x with
  | ok a => simp [fault?]
  | error e => simp [fault?]

theorem bind_eq_ok {x : Except ε α} {f : α → Except ε β} {b : β} :
    x >>= f = .ok b ↔ ∃ a, x = .ok a ∧ f a = .ok b := by
  cases x with
  | ok a => simp [bind, Except.bind]
  | error e => simp [bind, Except.bind]

theorem map_eq_ok {x : Except ε α} {f : α → β} {b : β} :
    x.map f = .ok b ↔ ∃ a, x = .ok a ∧ f a = b := by
  cases x with
  | ok a => simp [Except.map]
  | error e => simp [Except.map]

theorem pure_eq_ok {a b : α} : (pure a : Except ε α) = .ok b ↔ a = b := by
  simp [pure, Except.pure]

theorem mapError_eq_ok {x : Except ε α} {f : ε → ε'} {a : α} :
    x.mapError f = .ok a ↔ x = .ok a := by
  cases x with
  | ok b => simp [Except.mapError]
  | error e => simp [Except.mapError]

theorem mapError_eq_error {x : Except ε α} {f : ε → ε'} {e' : ε'} :
    x.mapError f = .error e' ↔ ∃ e, x = .error e ∧ f e = e' := by
  cases x with
  | ok a => simp [Except.mapError]
  | error e => simp [Except.mapError]

theorem fault?_map (x : Except ε α) (f : α → β) : fault? (x.map f) = fault? x := by
  cases x with
  | ok a => rfl
  | error e => rfl

theorem fault?_mapError (x : Except ε α) (f : ε → ε') :
    fault? (x.mapError f) = (fault? x).map f := by
  cases x with
  | ok a => rfl
  | error e => rfl

/-- If what follows has the same fault with every value, the fault is the first of the two. -/
theorem fault?_bind {x : Except ε α} {f : α → Except ε β} {o : Option ε}
    (h : ∀ a, x = .ok a → fault? (f a) = o) : fault? (x >>= f) = (fault? x).or o := by
  cases x with
  | ok a => exact h a rfl
  | error e => rfl

theorem fault?_bind_pure (x : Except ε α) (f : α → β) :
    fault? (x >>= fun a => (pure (f a) : Except ε β)) = fault? x := by
  rw [fault?_bind (o := none) fun _ _ => rfl, Option.or_none]

theorem findSome?_cons_or {γ : Type} (f : α → Option γ) (a : α) (l : List α) :
    (a :: l).findSome? f = (f a).or (l.findSome? f) := by
  rw [List.findSome?_cons]
  cases f a with
  | none => rfl
  | some b => rfl

theorem findSome?_flatMap {γ : Type} (l : List α) (g : α → List β) (f : β → Option γ) :
    (l.flatMap g).findSome? f = l.findSome? fun a => (g a).findSome? f := by
  induction l with
  | nil => rfl
  | cons a l ih => rw [List.flatMap_cons, List.findSome?_append, findSome?_cons_or, ih]

/-- A list that is gone through gives one value for each item. -/
theorem mapM_eq_ok {f : α → Except ε β} {l : List α} {bs : List β} :
    l.mapM f = .ok bs ↔ l.Forall₂ (fun a b => f a = .ok b) bs := by
  induction l generalizing bs with
  | nil =>
    rw [List.mapM_nil, pure_eq_ok, List.forall₂_nil_left_iff, eq_comm]
  | cons a l ih =>
    rw [List.mapM_cons, bind_eq_ok, List.forall₂_cons_left_iff]
    simp only [bind_eq_ok, ih, pure_eq_ok, exists_and_left, @eq_comm _ (_ :: _)]

/-- A list that is gone through has the fault of the first item that has one. -/
theorem fault?_mapM (f : α → Except ε β) (l : List α) :
    fault? (l.mapM f) = l.findSome? fun a => fault? (f a) := by
  induction l with
  | nil => rfl
  | cons a l ih =>
    rw [List.mapM_cons, List.findSome?_cons]
    cases ha : f a with
    | error e => rfl
    | ok b => exact (fault?_bind_pure _ _).trans ih

end ChainIndexer.Outcome
