import Mathlib.Algebra.Order.Field.Rat
import Mathlib.Tactic.Ring
import ChainIndexer.TokenBucket

/-
  A bucket keeps to its rate.

  Callers have the bucket one after another, so that what they do is a row of calls at times that
  never fall. A call takes a token or leaves the tokens as they are (`tokens_tryTake`), and between
  two calls no more tokens come in than the rate brings (`tokens_refill_le`). So the tokens that are
  there, with those that the rate will have brought by a time, pay for every call that is granted
  until then (`grants_le`). What a bucket has saved up when a stretch of time begins is no more than
  it holds, which bounds the calls of that stretch (`grants_between_le`). The pause that a refused
  call is told brings just the part of a token that is missing (`tryTake_after_wait`).
-/

namespace ChainIndexer.TokenBucket

variable {b : TokenBucket} {now first last : ℚ} {times : List ℚ}

/-! ## Tokens that come in -/

theorem capacity_eq_max (rate : ℚ) : capacity rate = max rate 1 := by
  unfold capacity
  split
  · rename_i h
    exact (max_eq_right h).symm
  · rename_i h
    exact (max_eq_left (le_of_not_ge h)).symm

theorem one_le_capacity (rate : ℚ) : 1 ≤ capacity rate := by
  rw [capacity_eq_max]
  exact le_max_right rate 1

@[simp]
theorem rate_refill (b : TokenBucket) (now : ℚ) : (b.refill now).rate = b.rate := rfl

@[simp]
theorem refilled_refill (b : TokenBucket) (now : ℚ) : (b.refill now).refilled = now := rfl

theorem tokens_refill (h : b.refilled ≤ now) :
    (b.refill now).tokens = min (b.tokens + b.rate * (now - b.refilled)) (capacity b.rate) := by
  unfold refill
  dsimp only
  rw [if_pos h, min_def, mul_comm b.rate]

theorem tokens_refill_le (h : b.refilled ≤ now) :
    (b.refill now).tokens ≤ b.tokens + b.rate * (now - b.refilled) := by
  rw [tokens_refill h]
  exact min_le_left _ _

theorem tokens_refill_le_capacity (h : b.refilled ≤ now) :
    (b.refill now).tokens ≤ capacity b.rate := by
  rw [tokens_refill h]
  exact min_le_right _ _

/-- Tokens come into the bucket, which has neither less than none nor more than it holds. -/
structure Sound (b : TokenBucket) : Prop where
  rate_pos : 0 < b.rate
  nonneg : 0 ≤ b.tokens
  le_capacity : b.tokens ≤ capacity b.rate

theorem sound_full {rate : ℚ} (hr : 0 < rate) (start : ℚ) : (full rate start).Sound :=
  ⟨hr, le_trans zero_le_one (one_le_capacity rate), le_refl _⟩

theorem Sound.refill (hb : b.Sound) (h : b.refilled ≤ now) : (b.refill now).Sound := by
  refine ⟨hb.rate_pos, ?_, tokens_refill_le_capacity h⟩
  rw [tokens_refill h]
  refine le_min ?_ (le_trans zero_le_one (one_le_capacity b.rate))
  exact add_nonneg hb.nonneg (mul_nonneg hb.rate_pos.le (sub_nonneg.2 h))

/-! ## One call -/

/-- The tokens that are taken with an answer: one, unless the answer is a time to wait. -/
def granted : Option ℚ → ℕ
  | none => 1
  | some _ => 0

theorem tryTake_of_le (h : 1 ≤ (b.refill now).tokens) :
    b.tryTake now = (none, { b.refill now with tokens := (b.refill now).tokens - 1 }) :=
  if_pos h

theorem tryTake_of_lt (h : (b.refill now).tokens < 1) :
    b.tryTake now = (some ((1 - (b.refill now).tokens) / b.rate), b.refill now) :=
  if_neg (not_le.2 h)

@[simp]
theorem rate_tryTake (b : TokenBucket) (now : ℚ) : (b.tryTake now).2.rate = b.rate := by
  unfold tryTake
  dsimp only
  split <;> rfl

@[simp]
theorem refilled_tryTake (b : TokenBucket) (now : ℚ) : (b.tryTake now).2.refilled = now := by
  unfold tryTake
  dsimp only
  split <;> rfl

/-- The tokens that were there are those that are left and the one that was taken. -/
theorem tokens_tryTake (b : TokenBucket) (now : ℚ) :
    granted (b.tryTake now).1 + (b.tryTake now).2.tokens = (b.refill now).tokens := by
  rcases le_or_gt 1 (b.refill now).tokens with h | h
  · rw [tryTake_of_le h]
    exact add_sub_cancel _ _
  · rw [tryTake_of_lt h]
    exact zero_add _

theorem Sound.tryTake (hb : b.Sound) (h : b.refilled ≤ now) : (b.tryTake now).2.Sound := by
  have hf := hb.refill h
  rcases le_or_gt 1 (b.refill now).tokens with hle | hlt
  · rw [tryTake_of_le hle]
    exact ⟨hf.rate_pos, sub_nonneg.2 hle, le_trans (sub_le_self _ zero_le_one) hf.le_capacity⟩
  · rw [tryTake_of_lt hlt]
    exact hf

/-- Who is refused is told a time to wait, and finds a token when it is over. -/
theorem tryTake_after_wait {wait : ℚ} (hr : 0 < b.rate) (h : (b.tryTake now).1 = some wait) :
    0 < wait ∧ ((b.tryTake now).2.tryTake (now + wait)).1 = none := by
  rcases le_or_gt 1 (b.refill now).tokens with hle | hlt
  · rw [tryTake_of_le hle] at h
    cases h
  · rw [tryTake_of_lt hlt] at h ⊢
    have hwait : b.rate * wait = 1 - (b.refill now).tokens := by
      rw [← Option.some.inj h, mul_div_cancel₀ _ hr.ne']
    have hpos : 0 < wait := by
      rw [← Option.some.inj h]
      exact div_pos (sub_pos.2 hlt) hr
    have hone : ((b.refill now).refill (now + wait)).tokens = 1 := by
      have hle : (b.refill now).refilled ≤ now + wait := le_add_of_nonneg_right hpos.le
      rw [tokens_refill hle, rate_refill, refilled_refill, add_sub_cancel_left, hwait,
        add_sub_cancel]
      exact min_eq_left (one_le_capacity b.rate)
    refine ⟨hpos, ?_⟩
    rw [tryTake_of_le hone.ge]

/-! ## Calls in a row -/

/-- The bucket after calls at the given times. -/
def after (b : TokenBucket) (times : List ℚ) : TokenBucket :=
  times.foldl (fun b now => (b.tryTake now).2) b

/-- What calls at the given times are told, each with its time. -/
def answers (b : TokenBucket) : List ℚ → List (ℚ × Option ℚ)
  | [] => []
  | now :: times => (now, (b.tryTake now).1) :: (b.tryTake now).2.answers times

/-- Times that do not fall, from the time at which the bucket was filled. -/
def Ascending (b : TokenBucket) (times : List ℚ) : Prop :=
  (b.refilled :: times).Pairwise (· ≤ ·)

theorem Ascending.head (hs : b.Ascending (now :: times)) : b.refilled ≤ now :=
  (List.pairwise_cons.1 hs).1 now List.mem_cons_self

theorem Ascending.tail (hs : b.Ascending (now :: times)) :
    (b.tryTake now).2.Ascending times := by
  unfold Ascending
  rw [refilled_tryTake]
  exact (List.pairwise_cons.1 hs).2

@[simp]
theorem rate_after (b : TokenBucket) (times : List ℚ) : (b.after times).rate = b.rate := by
  induction times generalizing b with
  | nil => rfl
  | cons now rest ih => exact (ih (b.tryTake now).2).trans (rate_tryTake b now)

theorem Sound.after (hb : b.Sound) (hs : b.Ascending times) : (b.after times).Sound := by
  induction times generalizing b with
  | nil => exact hb
  | cons now rest ih => exact ih (hb.tryTake hs.head) hs.tail

theorem answers_cons (b : TokenBucket) (now : ℚ) (times : List ℚ) :
    b.answers (now :: times) = (now, (b.tryTake now).1) :: (b.tryTake now).2.answers times := rfl

/-- In a row of calls, who is refused and comes next after the time that was told is not refused. -/
theorem answer_after_wait {i : ℕ} {wait : ℚ} (hr : 0 < b.rate)
    (h : (b.answers times)[i]? = some (now, some wait)) :
    0 < wait ∧ ∀ answer, (b.answers times)[i + 1]? = some (now + wait, answer) → answer = none := by
  induction times generalizing b i with
  | nil => cases h
  | cons t rest ih =>
    cases i with
    | succ i => exact ih (by rwa [rate_tryTake]) h
    | zero =>
      obtain ⟨rfl, ht⟩ := Prod.mk.inj (Option.some.inj h)
      obtain ⟨hpos, hnone⟩ := tryTake_after_wait hr ht
      refine ⟨hpos, fun answer hn => ?_⟩
      cases rest with
      | nil => cases hn
      | cons u rest =>
        obtain ⟨rfl, hu⟩ := Prod.mk.inj (Option.some.inj hn)
        exact hu.symm.trans hnone

/-! ## Calls that are granted -/

/-- How many calls are granted from one time until another. -/
def grants (first last : ℚ) (answers : List (ℚ × Option ℚ)) : ℕ :=
  answers.countP fun a => first ≤ a.1 ∧ a.1 ≤ last ∧ a.2 = none

theorem mem_of_mem_answers {a : ℚ × Option ℚ} (h : a ∈ b.answers times) : a.1 ∈ times := by
  induction times generalizing b with
  | nil => cases h
  | cons now rest ih =>
    rcases List.mem_cons.1 h with rfl | h
    · exact List.mem_cons_self
    · exact List.mem_cons_of_mem now (ih h)

/-- If the first call comes too late to count, so do all others. -/
theorem grants_eq_zero (h : last < now) (hs : b.Ascending (now :: times)) :
    grants first last (b.answers (now :: times)) = 0 := by
  refine List.countP_eq_zero.2 fun a ha hg => ?_
  have hle : now ≤ a.1 := by
    rcases List.mem_cons.1 (mem_of_mem_answers ha) with he | hm
    · exact he.ge
    · exact (List.pairwise_cons.1 (List.pairwise_cons.1 hs).2).1 a.1 hm
  exact absurd (of_decide_eq_true hg).2.1 (not_le.2 (lt_of_lt_of_le h hle))

theorem grants_cons_of_lt {answer : Option ℚ} {rest : List (ℚ × Option ℚ)} (h : now < first) :
    grants first last ((now, answer) :: rest) = grants first last rest :=
  List.countP_cons_of_neg fun hg => not_le.2 h (of_decide_eq_true hg).1

theorem grants_cons_le (now : ℚ) (answer : Option ℚ) (rest : List (ℚ × Option ℚ)) :
    grants first last ((now, answer) :: rest) ≤ granted answer + grants first last rest := by
  unfold grants
  rw [List.countP_cons, Nat.add_comm]
  refine Nat.add_le_add_right ?_ _
  split
  · rename_i hg
    obtain rfl := (of_decide_eq_true hg).2.2
    exact Nat.le_refl 1
  · exact Nat.zero_le _

/-- The tokens in the bucket and those that come in until a time. -/
def means (b : TokenBucket) (last : ℚ) : ℚ :=
  b.tokens + b.rate * (last - b.refilled)

theorem Sound.means_nonneg (hb : b.Sound) (h : b.refilled ≤ last) : 0 ≤ b.means last :=
  add_nonneg hb.nonneg (mul_nonneg hb.rate_pos.le (sub_nonneg.2 h))

theorem means_refill_le (h : b.refilled ≤ now) : (b.refill now).means last ≤ b.means last := by
  calc (b.refill now).means last
      ≤ b.tokens + b.rate * (now - b.refilled) + b.rate * (last - now) :=
        add_le_add_left (tokens_refill_le h) _
    _ = b.means last := by
        unfold means
        ring

/-- A call that is granted is paid for, so that what pays for the later calls pays for all with
it. -/
theorem grants_cons_le_means
    (h : (grants first last ((b.tryTake now).2.answers times) : ℚ) ≤
      (b.tryTake now).2.means last) :
    (grants first last (b.answers (now :: times)) : ℚ) ≤ (b.refill now).means last := by
  have hcons : (grants first last (b.answers (now :: times)) : ℚ) ≤
      granted (b.tryTake now).1 + grants first last ((b.tryTake now).2.answers times) := by
    exact_mod_cast grants_cons_le now _ _
  calc (grants first last (b.answers (now :: times)) : ℚ)
      ≤ granted (b.tryTake now).1 + (b.tryTake now).2.means last :=
        hcons.trans (add_le_add_right h _)
    _ = (b.refill now).means last := by
        unfold means
        rw [rate_tryTake, refilled_tryTake, ← add_assoc, tokens_tryTake, rate_refill,
          refilled_refill]

/-- The tokens that are there and those that come in pay for every call that is granted. -/
theorem grants_le (hb : b.Sound) (hl : b.refilled ≤ last) (hs : b.Ascending times) :
    (grants first last (b.answers times) : ℚ) ≤ b.means last := by
  induction times generalizing b with
  | nil => exact hb.means_nonneg hl
  | cons now rest ih =>
    rcases le_or_gt now last with h | h
    · have hu : (b.tryTake now).2.refilled ≤ last := by rwa [refilled_tryTake]
      have hlater := ih (hb.tryTake hs.head) hu hs.tail
      exact (grants_cons_le_means hlater).trans (means_refill_le hs.head)
    · rw [grants_eq_zero h hs]
      exact hb.means_nonneg hl

/-- Between two times no more calls are granted than a full bucket has tokens and the rate
brings. -/
theorem grants_between_le (hb : b.Sound) (hw : first ≤ last) (hs : b.Ascending times) :
    (grants first last (b.answers times) : ℚ) ≤ capacity b.rate + b.rate * (last - first) := by
  have hpos : 0 ≤ capacity b.rate + b.rate * (last - first) :=
    add_nonneg (le_trans zero_le_one (one_le_capacity b.rate))
      (mul_nonneg hb.rate_pos.le (sub_nonneg.2 hw))
  induction times generalizing b with
  | nil => exact hpos
  | cons now rest ih =>
    have hu := hb.tryTake hs.head
    rcases lt_or_ge now first with hf | hf
    · have hlater := ih hu hs.tail (by rwa [rate_tryTake])
      rw [rate_tryTake] at hlater
      rwa [answers_cons, grants_cons_of_lt hf]
    rcases le_or_gt now last with h | h
    · -- This is the first call that counts, and what it finds is no more than the bucket holds.
      have hl : (b.tryTake now).2.refilled ≤ last := by rwa [refilled_tryTake]
      calc (grants first last (b.answers (now :: rest)) : ℚ)
          ≤ (b.refill now).means last := grants_cons_le_means (grants_le hu hl hs.tail)
        _ ≤ capacity b.rate + b.rate * (last - first) :=
            add_le_add (tokens_refill_le_capacity hs.head)
              (mul_le_mul_of_nonneg_left (sub_le_sub_left hf last) hb.rate_pos.le)
    · rwa [grants_eq_zero h hs]

/-- A bucket that is full at some time limits the calls from then on, at whatever times and by
whomever they are made. After each of them its tokens are neither less than none nor more than it
holds. In a stretch of time, wherever it begins, no more calls are granted than the bucket holds
tokens and the rate brings in it. Who is refused is told a time to wait, and is granted a call that
comes after just that time with no other one before it. -/
theorem keeps_to_rate (rate start : ℚ) (times : List ℚ) (hr : 0 < rate)
    (hs : (start :: times).Pairwise (· ≤ ·)) :
    (∀ n, 0 ≤ ((full rate start).after (times.take n)).tokens ∧
      ((full rate start).after (times.take n)).tokens ≤ max rate 1) ∧
    (∀ first length, 0 ≤ length →
      (grants first (first + length) ((full rate start).answers times) : ℚ) ≤
        max rate 1 + rate * length) ∧
    ∀ (i : ℕ) (now wait : ℚ), ((full rate start).answers times)[i]? = some (now, some wait) →
      0 < wait ∧ ∀ answer : Option ℚ,
        ((full rate start).answers times)[i + 1]? = some (now + wait, answer) → answer = none := by
  have hb := sound_full hr start
  refine ⟨fun n => ?_, fun first length hl => ?_, fun i now wait => answer_after_wait hr⟩
  · have hn : ((full rate start).after (times.take n)).Sound :=
      hb.after (hs.sublist ((List.take_sublist n times).cons_cons start))
    refine ⟨hn.nonneg, ?_⟩
    have hc := hn.le_capacity
    rwa [rate_after, capacity_eq_max] at hc
  · have hw : first ≤ first + length := le_add_of_nonneg_right hl
    have hg := grants_between_le hb hw hs
    rwa [capacity_eq_max, add_sub_cancel_left] at hg

/-- At two tokens a second, a third call at once is told to wait for half a second, and is then
granted: three calls in that time, which is as many as there may be. -/
theorem keeps_to_rate_burst :
    let times : List ℚ := [0, 0, 0, 1 / 2, 3 / 4]
    (0 : ℚ) < 2 ∧ ((0 : ℚ) :: times).Pairwise (· ≤ ·) ∧
      (full 2 0).answers times =
        [(0, none), (0, none), (0, some (1 / 2)), (1 / 2, none), (3 / 4, some (1 / 4))] ∧
      (0 ≤ ((full 2 0).after (times.take 3)).tokens ∧
        ((full 2 0).after (times.take 3)).tokens ≤ max 2 1) ∧
      grants 0 (0 + 1 / 2) ((full 2 0).answers times) = 3 ∧ (3 : ℚ) ≤ max 2 1 + 2 * (1 / 2) ∧
      (0 : ℚ) < 1 / 2 ∧ ∀ answer : Option ℚ,
        ((full 2 0).answers times)[3]? = some (0 + 1 / 2, answer) → answer = none := by
  intro times
  have hr : (0 : ℚ) < 2 := by decide +kernel
  have hs : ((0 : ℚ) :: times).Pairwise (· ≤ ·) := by decide +kernel
  have ha : (full 2 0).answers times =
      [(0, none), (0, none), (0, some (1 / 2)), (1 / 2, none), (3 / 4, some (1 / 4))] := by
    decide +kernel
  have hg : grants 0 (0 + 1 / 2) ((full 2 0).answers times) = 3 := by decide +kernel
  obtain ⟨hbounds, hgrants, hwait⟩ := keeps_to_rate 2 0 times hr hs
  have hthree := hgrants 0 (1 / 2) (by decide +kernel)
  rw [hg] at hthree
  exact ⟨hr, hs, ha, hbounds 3, hg, hthree, hwait 2 0 (1 / 2) (by rw [ha]; rfl)⟩

end ChainIndexer.TokenBucket
