import ChainIndexer.Proofs.Outcome
import ChainIndexer.Wire.Varint
import Mathlib.Algebra.Group.Nat.Defs

/-
  Varints, keys and lengths, written and read.

  A number below `2 ^ 64` is read as it was written (`readVarint_writeVarint`). Several inputs are
  read as one number, but none of them is shorter than what is written for it
  (`le_of_readVarint`); so what is written for a key or a length never takes more room than what was
  read.
-/

namespace ChainIndexer.Wire

open Outcome Text

variable {n k place tag : Nat} {form : WireType} {bs rest : Bytes}

/-! ## Lengths of varints -/

theorem writeVarint_of_lt (h : n < 128) : writeVarint n = [UInt8.ofNat n] := by
  unfold writeVarint
  exact if_pos h

theorem writeVarint_of_le (h : 128 ≤ n) :
    writeVarint n = UInt8.ofNat (n % 128 + 128) :: writeVarint (n / 128) := by
  rw [writeVarint]
  exact if_neg (Nat.not_lt.2 h)

theorem writeVarint_length_pos (n : Nat) : 0 < (writeVarint n).length := by
  unfold writeVarint
  split
  · exact Nat.zero_lt_one
  · exact Nat.succ_pos _

theorem writeVarint_length_le_iff (n k : Nat) :
    (writeVarint n).length ≤ k + 1 ↔ n < 128 ^ (k + 1) := by
  induction k generalizing n with
  | zero =>
    by_cases h : n < 128
    · simp [writeVarint_of_lt h, h]
    · have hp := writeVarint_length_pos (n / 128)
      rw [writeVarint_of_le (Nat.not_lt.1 h), List.length_cons]
      omega
  | succ k ih =>
    by_cases h : n < 128
    · rw [writeVarint_of_lt h, List.length_singleton, Nat.pow_succ]
      have hk : 0 < 128 ^ (k + 1) := Nat.pow_pos (by decide)
      omega
    · rw [writeVarint_of_le (Nat.not_lt.1 h), List.length_cons, Nat.add_le_add_iff_right, ih,
        Nat.div_lt_iff_lt_mul (by decide), ← Nat.pow_succ]

theorem writeVarint_length_mono {m : Nat} (h : m ≤ n) :
    (writeVarint m).length ≤ (writeVarint n).length := by
  have hp := writeVarint_length_pos n
  have hl : (writeVarint n).length ≤ (writeVarint n).length - 1 + 1 := by omega
  have hn := (writeVarint_length_le_iff n _).1 hl
  have hm := (writeVarint_length_le_iff m _).2 (Nat.lt_of_le_of_lt h hn)
  omega

/-- Another group takes one more byte. -/
theorem writeVarint_length_cons {low : Nat} (h : low < 128) (n : Nat) :
    (writeVarint (low + 128 * n)).length ≤ (writeVarint n).length + 1 := by
  by_cases hs : low + 128 * n < 128
  · rw [writeVarint_of_lt hs, List.length_singleton]
    exact Nat.le_add_left 1 _
  · have hd : (low + 128 * n) / 128 = n := by omega
    refine Nat.le_of_eq ?_
    rw [writeVarint_of_le (Nat.not_lt.1 hs), List.length_cons, hd]

theorem writeVarint_length_add (m n : Nat) :
    (writeVarint (m + n)).length ≤ (writeVarint m).length + (writeVarint n).length := by
  obtain ⟨j, hj⟩ := Nat.exists_eq_add_of_lt (writeVarint_length_pos m)
  obtain ⟨k, hk⟩ := Nat.exists_eq_add_of_lt (writeVarint_length_pos n)
  have hm := (writeVarint_length_le_iff m (j + k)).1 (by omega)
  have hn := (writeVarint_length_le_iff n (j + k)).1 (by omega)
  have hs : m + n < 128 ^ (j + k + 1 + 1) := by
    rw [Nat.pow_succ]
    omega
  have hl := (writeVarint_length_le_iff (m + n) (j + k + 1)).2 hs
  omega

theorem writeVarint_length_double (n : Nat) :
    (writeVarint (2 * n)).length ≤ (writeVarint n).length + 1 := by
  have hm := writeVarint_length_mono (show 2 * n ≤ 0 + 128 * n by omega)
  exact Nat.le_trans hm (writeVarint_length_cons (by decide) n)

/-! ## Varints -/

theorem toNat_ofNat_of_lt (h : n < 256) : (UInt8.ofNat n).toNat = n :=
  UInt8.toNat_ofNat_of_lt h

theorem pow_succ_place (h : place + 1 ≤ 9) :
    2 ^ (64 - 7 * place) = 2 ^ (64 - 7 * (place + 1)) * 128 := by
  have he : 64 - 7 * place = 64 - 7 * (place + 1) + 7 := by omega
  rw [he, Nat.pow_add]

theorem readVarintAt_writeVarint (hp : place ≤ 9) (h : n < 2 ^ (64 - 7 * place)) (rest : Bytes) :
    readVarintAt place (writeVarint n ++ rest) = .ok (n, rest) := by
  induction n using Nat.strongRecOn generalizing place with
  | ind n ih =>
    by_cases hs : n < 128
    · have hb : (UInt8.ofNat n).toNat = n := toNat_ofNat_of_lt (by omega)
      simp only [writeVarint_of_lt hs, List.cons_append, List.nil_append, readVarintAt, hb]
      by_cases h9 : place = 9
      · subst h9
        rw [if_pos rfl, if_pos (by simpa using h)]
      · rw [if_neg h9, if_pos hs]
    · have hl : place + 1 ≤ 9 := by
        by_contra hc
        obtain rfl : place = 9 := by omega
        omega
      have hb : (UInt8.ofNat (n % 128 + 128)).toNat = n % 128 + 128 :=
        toNat_ofNat_of_lt (by omega)
      rw [pow_succ_place hl] at h
      have hd := ih (n / 128) (by omega) hl ((Nat.div_lt_iff_lt_mul (by decide)).2 h)
      simp only [writeVarint_of_le (Nat.not_lt.1 hs), List.cons_append, readVarintAt, hb, hd]
      rw [if_neg (by omega), if_neg (by omega)]
      have hn : n % 128 + 128 - 128 + 128 * (n / 128) = n := by omega
      exact congrArg (fun m => Except.ok (m, rest)) hn

/-- A number is read as it was written. -/
theorem readVarint_writeVarint (h : n < 2 ^ 64) (rest : Bytes) :
    readVarint (writeVarint n ++ rest) = .ok (n, rest) :=
  readVarintAt_writeVarint (Nat.zero_le 9) h rest

theorem le_of_readVarintAt (hp : place ≤ 9) (h : readVarintAt place bs = .ok (n, rest)) :
    n < 2 ^ (64 - 7 * place) ∧ (writeVarint n).length + rest.length ≤ bs.length := by
  induction bs generalizing place n with
  | nil => cases h
  | cons b bs ih =>
    simp only [readVarintAt] at h
    split at h
    · rename_i h9
      split at h
      · rename_i hb
        cases h
        subst h9
        refine ⟨hb, ?_⟩
        rw [writeVarint_of_lt (by omega)]
        simp only [List.length_cons, List.length_nil]
        omega
      · cases h
    · rename_i h9
      have hl : place + 1 ≤ 9 := by omega
      split at h
      · rename_i hb
        cases h
        refine ⟨?_, ?_⟩
        · have ht : 0 < 2 ^ (64 - 7 * (place + 1)) := Nat.pow_pos (by decide)
          rw [pow_succ_place hl]
          omega
        · rw [writeVarint_of_lt hb]
          simp only [List.length_cons, List.length_nil]
          omega
      · obtain ⟨⟨m, rest'⟩, hm, he⟩ := bind_eq_ok.1 h
        change Except.ok (b.toNat - 128 + 128 * m, rest') = _ at he
        cases he
        obtain ⟨hs, hlen⟩ := ih hl hm
        have hb := b.toNat_lt
        have hlow : b.toNat - 128 < 128 := by omega
        have hc := writeVarint_length_cons hlow m
        refine ⟨?_, ?_⟩
        · rw [pow_succ_place hl]
          omega
        · simp only [List.length_cons]
          omega

/-- A number that was read has 64 bits, and took at least as many bytes as it needs. -/
theorem le_of_readVarint (h : readVarint bs = .ok (n, rest)) :
    n < 2 ^ 64 ∧ (writeVarint n).length + rest.length ≤ bs.length :=
  le_of_readVarintAt (Nat.zero_le 9) h

/-! ## Keys -/

theorem ofNat?_toNat (form : WireType) : WireType.ofNat? form.toNat = some form := by
  cases form <;> rfl

theorem toNat_of_ofNat? (h : WireType.ofNat? n = some form) : form.toNat = n := by
  unfold WireType.ofNat? at h
  split at h <;> cases h <;> rfl

theorem toNat_lt (form : WireType) : form.toNat < 8 := by
  cases form <;> decide

/-- A key is read as it was written. -/
theorem readKey_writeKey (hp : 1 ≤ tag) (ht : tag < 2 ^ 29) (form : WireType) (rest : Bytes) :
    readKey (writeKey tag form ++ rest) = .ok ((tag, form), rest) := by
  have hf := toNat_lt form
  have hm : (tag * 8 + form.toNat) % 8 = form.toNat := by omega
  have hd : (tag * 8 + form.toNat) / 8 = tag := by omega
  unfold readKey writeKey
  rw [readVarint_writeVarint (by omega)]
  simp only [bind, Except.bind]
  rw [if_neg (by omega), hm, hd, ofNat?_toNat]
  simp only [pure, Except.pure]
  rw [if_neg (by omega)]

theorem le_of_readKey (h : readKey bs = .ok ((tag, form), rest)) :
    (writeKey tag form).length + rest.length ≤ bs.length := by
  unfold readKey at h
  obtain ⟨⟨key, rest'⟩, hk, h⟩ := bind_eq_ok.1 h
  simp only at h
  split at h
  · cases h
  split at h
  · cases h
  rename_i form' hf
  split at h
  · cases h
  cases h
  have hn := toNat_of_ofNat? hf
  have he : key / 8 * 8 + form.toNat = key := by omega
  unfold writeKey
  rw [he]
  exact (le_of_readVarint hk).2

theorem writeKey_length_pos (tag : Nat) (form : WireType) : 0 < (writeKey tag form).length :=
  writeVarint_length_pos _

/-! ## Delimited bytes -/

/-- A length is read as it was written, in front of the bytes that it counts. -/
theorem readLength_writeDelimited {value : Bytes} (h : value.length < 2 ^ 64) (rest : Bytes) :
    readLength (writeDelimited value ++ rest) = .ok (value.length, value ++ rest) := by
  unfold readLength writeDelimited
  rw [List.append_assoc, readVarint_writeVarint h]
  simp only [bind, Except.bind]
  rw [if_neg (by simp)]
  rfl

theorem le_of_readLength (h : readLength bs = .ok (n, rest)) :
    n ≤ rest.length ∧ (writeVarint n).length + rest.length ≤ bs.length := by
  unfold readLength at h
  obtain ⟨⟨n', rest'⟩, hn, h⟩ := bind_eq_ok.1 h
  simp only at h
  split at h
  · cases h
  · rename_i hl
    cases h
    exact ⟨Nat.not_lt.1 hl, (le_of_readVarint hn).2⟩

/-! ## Skipping -/

theorem length_le_of_readExact {taken : Bytes} (h : readExact n bs = .ok (taken, rest)) :
    rest.length ≤ bs.length := by
  unfold readExact at h
  split at h
  · cases h
  · cases h
    rw [List.length_drop]
    exact Nat.sub_le _ _

/-- What is skipped was there: nothing is put back. -/
theorem length_le_of_skip (fuel : Nat) :
    (∀ depth form tag bs rest, skipValue fuel depth form tag bs = .ok rest →
        rest.length ≤ bs.length) ∧
      ∀ depth tag bs rest, skipGroup fuel depth tag bs = .ok rest → rest.length ≤ bs.length := by
  induction fuel with
  | zero =>
    refine ⟨?_, ?_⟩
    · intro depth form tag bs rest h
      cases h
    · intro depth tag bs rest h
      cases h
  | succ fuel ih =>
    refine ⟨?_, ?_⟩
    · intro depth form tag bs rest h
      simp only [skipValue] at h
      split at h
      · cases h
      cases form with
      | varint =>
        obtain ⟨⟨n, rest'⟩, hr, rfl⟩ := map_eq_ok.1 h
        have hl := (le_of_readVarint hr).2
        exact Nat.le_trans (Nat.le_add_left _ _) hl
      | thirtyTwoBit =>
        obtain ⟨⟨taken, rest'⟩, hr, rfl⟩ := map_eq_ok.1 h
        exact length_le_of_readExact hr
      | sixtyFourBit =>
        obtain ⟨⟨taken, rest'⟩, hr, rfl⟩ := map_eq_ok.1 h
        exact length_le_of_readExact hr
      | lengthDelimited =>
        obtain ⟨⟨n, rest'⟩, hr, he⟩ := bind_eq_ok.1 h
        cases he
        have hl := (le_of_readLength hr).2
        simp only [List.length_drop]
        omega
      | startGroup => exact ih.2 _ _ _ _ h
      | endGroup => cases h
    · intro depth tag bs rest h
      simp only [skipGroup] at h
      obtain ⟨⟨⟨inner, form⟩, rest'⟩, hk, h⟩ := bind_eq_ok.1 h
      have hl := le_of_readKey hk
      simp only at h
      split at h
      · split at h
        · cases h
          omega
        · cases h
      · obtain ⟨rest'', hs, h⟩ := bind_eq_ok.1 h
        have hv := ih.1 _ _ _ _ _ hs
        have hg := ih.2 _ _ _ _ h
        omega

end ChainIndexer.Wire
