import ChainIndexer.Retry

/-
  How often a call is made.

  Five failures may be over when the same is asked again, each with any number of layers of context
  around it (`isRetryable_iff`). A call is made until its outcome is none of these, three times at
  most (`IsLast`). The outcome of the last call is the result, and behind each of the others there
  is a pause, longer by the back-off than the one before (`run_until_settled`).
-/

namespace ChainIndexer

/-! ## Errors that may pass -/

namespace Error

variable {e : Error}

/-- A failure that may be over when the same is asked again. -/
inductive Passing : Error → Prop where
  | elapsed : Passing .elapsed
  | timedOut : Passing (.request true)
  | serverFailed {answer : Nat} (text : String) (h : 500 ≤ answer) : Passing (.refused answer text)
  | late (text : String) : Passing (.status .deadlineExceeded text)
  | unavailable (text : String) : Passing (.status .unavailable text)

/-- An error with layers of context around it, the outermost one first. -/
def within (layers : List String) (e : Error) : Error :=
  layers.foldr context e

/-- A passing failure with any number of layers of context around it. -/
def MayPass (e : Error) : Prop :=
  ∃ layers cause, Passing cause ∧ e = within layers cause

theorem isRetryable_within (layers : List String) (e : Error) :
    (within layers e).isRetryable = e.isRetryable := by
  induction layers with
  | nil => rfl
  | cons text layers ih => exact ih

theorem isRetryable_of_passing (h : Passing e) : e.isRetryable = true := by
  cases h with
  | serverFailed text h => exact decide_eq_true h
  | _ => rfl

theorem passing_of_status {code : StatusCode} {text : String}
    (h : (status code text).isRetryable = true) : Passing (status code text) := by
  rcases Bool.or_eq_true_iff.1 h with hc | hc
  · rw [eq_of_beq hc]
    exact .late text
  · rw [eq_of_beq hc]
    exact .unavailable text

theorem mayPass_of_isRetryable (h : e.isRetryable = true) : MayPass e := by
  induction e with
  | context text source ih =>
    obtain ⟨layers, cause, hc, rfl⟩ := ih h
    exact ⟨text :: layers, cause, hc, rfl⟩
  | elapsed => exact ⟨[], _, .elapsed, rfl⟩
  | request timedOut =>
    obtain rfl : timedOut = true := h
    exact ⟨[], _, .timedOut, rfl⟩
  | refused answer text => exact ⟨[], _, .serverFailed text (of_decide_eq_true h), rfl⟩
  | status code text => exact ⟨[], _, passing_of_status h, rfl⟩
  | _ => cases h

/-- An error is worth another attempt if it is a passing failure inside of its context. -/
theorem isRetryable_iff (e : Error) : e.isRetryable = true ↔ MayPass e := by
  refine ⟨mayPass_of_isRetryable, ?_⟩
  rintro ⟨layers, cause, hc, rfl⟩
  rw [isRetryable_within]
  exact isRetryable_of_passing hc

end Error

namespace Attempts

variable {σ α : Type} {call : σ → Except Error α × σ} {s : σ} {j k most : Nat}

/-! ## Calls in a row -/

/-- The state after so many calls. -/
def stateAfter (call : σ → Except Error α × σ) : Nat → σ → σ
  | 0, s => s
  | n + 1, s => stateAfter call n (call s).2

/-- The outcome of call number `n` if all calls are made, where the first one has the number 1. -/
def outcome (call : σ → Except Error α × σ) (s : σ) (n : Nat) : Except Error α :=
  (call (stateAfter call (n - 1) s)).1

theorem outcome_succ (call : σ → Except Error α × σ) (s : σ) {n : Nat} (h : 1 ≤ n) :
    outcome call s (n + 1) = outcome call (call s).2 n := by
  obtain ⟨n, rfl⟩ := Nat.exists_eq_add_of_le' h
  rfl

/-! ## The last call -/

/-- An outcome that another call would not mend: a value, or an error that does not pass. -/
def Settled (o : Except Error α) : Prop :=
  ∀ e, o = .error e → ¬e.MayPass

theorem settled_ok (a : α) : Settled (.ok a : Except Error α) :=
  fun _ h => nomatch h

theorem settled_error_iff {e : Error} :
    Settled (.error e : Except Error α) ↔ ¬e.isRetryable = true := by
  rw [Error.isRetryable_iff]
  constructor
  · intro h
    exact h e rfl
  · rintro h _ ⟨⟩
    exact h

/-- Of calls with such outcomes, number `k` is the last that is made: the first one whose outcome is
settled, or number `most` if none of the first `most` outcomes is. -/
def IsLast (most : Nat) (outcomes : Nat → Except Error α) (k : Nat) : Prop :=
  (1 ≤ k ∧ k ≤ most ∧ Settled (outcomes k) ∧ ∀ i, 1 ≤ i → i < k → ¬Settled (outcomes i)) ∨
    (k = most ∧ ∀ i, 1 ≤ i → i ≤ most → ¬Settled (outcomes i))

variable {outcomes later : Nat → Except Error α}

theorem bounds_of_isLast (h : IsLast (most + 1) outcomes k) : 1 ≤ k ∧ k ≤ most + 1 := by
  rcases h with ⟨hk, hm, -⟩ | ⟨rfl, -⟩
  · exact ⟨hk, hm⟩
  · exact ⟨Nat.le_add_left 1 most, Nat.le_refl _⟩

theorem isLast_unique (hj : IsLast most outcomes j) (hk : IsLast most outcomes k) : j = k := by
  rcases hj with ⟨hj, hjm, hjs, hjb⟩ | ⟨rfl, hjn⟩ <;>
    rcases hk with ⟨hk, hkm, hks, hkb⟩ | ⟨rfl, hkn⟩
  · rcases Nat.lt_trichotomy j k with h | h | h
    · exact absurd hjs (hkb j hj h)
    · exact h
    · exact absurd hks (hjb k hk h)
  · exact absurd hjs (hkn j hj hjm)
  · exact absurd hks (hjn k hk hkm)
  · rfl

theorem isLast_of_settled (h : Settled (outcomes 1)) : IsLast (most + 1) outcomes 1 :=
  .inl ⟨Nat.le_refl 1, Nat.le_add_left 1 most, h, fun _ hi hlt => absurd hi (Nat.not_le.2 hlt)⟩

/-- A single call that may be made is the last one, whatever comes of it. -/
theorem isLast_single : IsLast 1 outcomes 1 := by
  by_cases h : Settled (outcomes 1)
  · exact isLast_of_settled h
  · refine .inr ⟨rfl, fun i hi hle => ?_⟩
    rwa [Nat.le_antisymm hle hi]

/-- If neither the first call nor the later ones up to some number are settled, none is up to the
next number. -/
theorem not_settled_succ {m : Nat} (h : ¬Settled (outcomes 1))
    (hl : ∀ i, 1 ≤ i → outcomes (i + 1) = later i)
    (hb : ∀ i, 1 ≤ i → i < m → ¬Settled (later i)) :
    ∀ i, 1 ≤ i → i < m + 1 → ¬Settled (outcomes i) := by
  intro i hi hlt
  obtain ⟨i, rfl⟩ := Nat.exists_eq_add_of_le' hi
  rcases Nat.eq_zero_or_pos i with rfl | hp
  · exact h
  · rw [hl i hp]
    exact hb i hp (Nat.lt_of_succ_lt_succ hlt)

/-- Behind a first call that another one may mend, the last call is the last of the later ones. -/
theorem isLast_succ (h : ¬Settled (outcomes 1)) (hl : ∀ i, 1 ≤ i → outcomes (i + 1) = later i)
    (hk : IsLast most later k) : IsLast (most + 1) outcomes (k + 1) := by
  rcases hk with ⟨hk, hm, hs, hb⟩ | ⟨rfl, hn⟩
  · refine .inl ⟨Nat.le_add_left 1 k, Nat.succ_le_succ hm, ?_, not_settled_succ h hl hb⟩
    rwa [hl k hk]
  · have hall := not_settled_succ h hl fun i hi hlt => hn i hi (Nat.le_of_lt_succ hlt)
    exact .inr ⟨rfl, fun i hi hle => hall i hi (Nat.lt_succ_of_le hle)⟩

/-! ## What is done -/

/-- What is done from call number `n` on if `more` calls follow it. -/
def stepsFrom (n more : Nat) : List Step :=
  .call :: (List.range' n more).flatMap fun i => [.pause (i * backoff), .call]

theorem stepsFrom_succ (n more : Nat) :
    stepsFrom n (more + 1) = .call :: .pause (n * backoff) :: stepsFrom (n + 1) more := by
  unfold stepsFrom
  rw [List.range'_succ, List.flatMap_cons]
  rfl

theorem count_stepsFrom (n more : Nat) : (stepsFrom n more).count .call = more + 1 := by
  induction more generalizing n with
  | zero => rfl
  | succ more ih =>
    have hp : Step.pause (n * backoff) ≠ .call := nofun
    rw [stepsFrom_succ, List.count_cons_self, List.count_cons_of_ne hp, ih]

/-- What comes of a call that is made again, told by the number of the last call. -/
theorem startingAt_last (call : σ → Except Error α × σ) (n more : Nat) (s : σ) :
    ∃ k, IsLast (more + 1) (outcome call s) k ∧
      startingAt call n more s = ⟨outcome call s k, stateAfter call k s, stepsFrom n (k - 1)⟩ := by
  induction more generalizing n s with
  | zero => exact ⟨1, isLast_single, rfl⟩
  | succ more ih =>
    unfold startingAt
    split
    · rename_i a u hc
      have ho : outcome call s 1 = .ok a := congrArg Prod.fst hc
      obtain rfl : (call s).2 = u := congrArg Prod.snd hc
      have hs : Settled (outcome call s 1) := by
        rw [ho]
        exact settled_ok a
      exact ⟨1, isLast_of_settled hs, by rw [ho]; rfl⟩
    · rename_i e u hc
      have ho : outcome call s 1 = .error e := congrArg Prod.fst hc
      obtain rfl : (call s).2 = u := congrArg Prod.snd hc
      have hs : Settled (outcome call s 1) ↔ ¬e.isRetryable = true := by
        rw [ho]
        exact settled_error_iff
      split
      · rename_i hr
        obtain ⟨k, hk, hrest⟩ := ih (n + 1) (call s).2
        have hp := (bounds_of_isLast hk).1
        refine ⟨k + 1, isLast_succ (fun h => hs.1 h hr) (fun i => outcome_succ call s) hk, ?_⟩
        rw [hrest, outcome_succ call s hp]
        obtain ⟨k, rfl⟩ := Nat.exists_eq_add_of_le' hp
        exact congrArg _ (stepsFrom_succ n k).symm
      · rename_i hr
        exact ⟨1, isLast_of_settled (hs.2 hr), by rw [ho]; rfl⟩

/-- As many calls are made as there may be, or fewer, and the last one says what comes of them. -/
theorem startingAt_eq (call : σ → Except Error α × σ) (n more : Nat) (s : σ) :
    ∃ k, 1 ≤ k ∧ k ≤ more + 1 ∧ (startingAt call n more s).result = outcome call s k ∧
      (startingAt call n more s).state = stateAfter call k s := by
  obtain ⟨k, hk, hr⟩ := startingAt_last call n more s
  rw [hr]
  exact ⟨k, (bounds_of_isLast hk).1, (bounds_of_isLast hk).2, rfl, rfl⟩

/-- Whatever comes of the calls, there is just one number that the last of them can have. So many
calls are made, one after another, and the outcome of the last one comes back as it is. Between call
number `i` and the next there is a pause of `i` times the back-off. What another call may mend is an
elapsed limit of time, a request that timed out, an answer with a status of at least 500, an
exceeded deadline or a node that is not available, inside of any number of layers of context. -/
theorem run_until_settled (call : σ → Except Error α × σ) (s : σ) :
    (∃ k, (∀ j, IsLast 3 (outcome call s) j ↔ j = k) ∧
      (run call s).calls = k ∧
      (run call s).state = stateAfter call k s ∧
      (run call s).result = outcome call s k ∧
      (run call s).steps =
        .call :: (List.range' 1 (k - 1)).flatMap fun i => [.pause (i * backoff), .call]) ∧
    ∀ e : Error, e.isRetryable = true ↔
      ∃ layers cause, Error.Passing cause ∧ e = .within layers cause := by
  obtain ⟨k, hk, hr⟩ := startingAt_last call 1 2 s
  have hrun : run call s = ⟨outcome call s k, stateAfter call k s, stepsFrom 1 (k - 1)⟩ := hr
  refine ⟨⟨k, fun j => ⟨fun hj => isLast_unique hj hk, ?_⟩, ?_⟩, Error.isRetryable_iff⟩
  · rintro rfl
    exact hk
  · rw [hrun]
    refine ⟨?_, rfl, rfl, rfl⟩
    rw [calls, count_stepsFrom]
    exact Nat.sub_add_cancel (bounds_of_isLast hk).1

/-- A server that fails, a node that is away, and the third call. -/
example :
    let call : Nat → Except Error Nat × Nat
      | 0 => (.error (.refused 503 ""), 1)
      | 1 => (.error (.context "block 7" (.status .unavailable "")), 2)
      | n => (.ok n, n + 1)
    (run call 0).steps = [.call, .pause 500, .call, .pause 1000, .call] := rfl

end Attempts

end ChainIndexer
