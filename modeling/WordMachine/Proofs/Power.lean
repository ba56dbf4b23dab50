import Mathlib.Data.BitVec
import WordMachine.Word.Basic

/-!
# Powers by squaring

The loop behind a power squares the base and halves the exponent until the exponent
is zero.  Here it runs without a bound on its rounds.  It keeps the product of the
accumulator and the power that is still to come, and an exponent below `2 ^ n` is used
up after at most `n` rounds, so that 256 rounds are always enough.

A power of two is a word with one bit, or zero from exponent 256 on.  Shifting left is
multiplying by it and shifting right is dividing by it, beyond the width too: there the
product is zero, and so is a quotient by zero.
-/

namespace WordMachine

namespace Word

/-- From base `b`, exponent `e` and accumulator `acc` the loop ends after `n` rounds,
with the given result. -/
inductive Squaring : ℕ → Word → Word → Word → Word → Prop
  | done (b acc : Word) : Squaring 0 b 0#256 acc acc
  | round {n : ℕ} {b e acc result : Word} (hne : e ≠ 0#256)
      (hrest : Squaring n (b * b) (e >>> 1) (if e.getLsbD 0 then acc * b else acc) result) :
      Squaring (n + 1) b e acc result

/-! ## What a round keeps -/

theorem toNat_half (e : Word) : (e >>> 1).toNat = e.toNat / 2 := by
  rw [BitVec.toNat_ushiftRight, Nat.shiftRight_one]

theorem round_power (b e acc : Word) :
    (if e.getLsbD 0 then acc * b else acc) * (b * b) ^ (e >>> 1).toNat = acc * b ^ e.toNat := by
  have hsquares : (b * b) ^ (e >>> 1).toNat = b ^ (2 * (e.toNat / 2)) := by
    rw [toNat_half, pow_mul, pow_two]
  have hbit : e.getLsbD 0 = decide (e.toNat % 2 = 1) := by
    rw [BitVec.getLsbD, Nat.testBit_zero]
  rw [hsquares, hbit]
  by_cases hodd : e.toNat % 2 = 1
  · have hsplit : e.toNat = 2 * (e.toNat / 2) + 1 := by omega
    rw [if_pos (decide_eq_true hodd), mul_assoc, ← pow_succ', ← hsplit]
  · have hsplit : e.toNat = 2 * (e.toNat / 2) := by omega
    rw [if_neg (by simpa using hodd), ← hsplit]

theorem Squaring.result_eq {n : ℕ} {b e acc result : Word} (h : Squaring n b e acc result) :
    result = acc * b ^ e.toNat := by
  induction h with
  | done b acc => rw [BitVec.toNat_zero, pow_zero, mul_one]
  | @round n b e acc result _ _ ih => rw [ih, round_power]

/-! ## When it ends -/

/-- With rounds enough for the exponent, the bound on them is not what ends the loop. -/
theorem squaring_squareAndMultiply (rounds : ℕ) (b e acc : Word) (h : e.toNat < 2 ^ rounds) :
    ∃ n ≤ rounds, Squaring n b e acc (squareAndMultiply rounds b e acc) := by
  induction rounds generalizing b e acc with
  | zero =>
      have hzero : e = 0#256 := BitVec.eq_of_toNat_eq (by simpa using h)
      subst hzero
      exact ⟨0, le_refl 0, .done b acc⟩
  | succ rounds ih =>
      by_cases hzero : e = 0#256
      · subst hzero
        exact ⟨0, Nat.zero_le _, .done b acc⟩
      · -- The exponent loses a bit in each round, so the bound on it keeps up with the rounds.
        have hhalf : (e >>> 1).toNat < 2 ^ rounds := by
          rw [toNat_half]
          omega
        obtain ⟨n, hn, hrest⟩ := ih (b * b) (e >>> 1) (if e.getLsbD 0 then acc * b else acc) hhalf
        rw [squareAndMultiply, if_neg hzero]
        exact ⟨n + 1, Nat.succ_le_succ hn, .round hzero hrest⟩

theorem squaring_exp (base exponent : Word) :
    ∃ n ≤ 256, Squaring n base exponent 1#256 (exp base exponent) :=
  squaring_squareAndMultiply 256 base exponent 1#256 exponent.isLt

theorem exp_eq_pow (base exponent : Word) : exp base exponent = base ^ exponent.toNat := by
  obtain ⟨n, -, hends⟩ := squaring_exp base exponent
  rw [hends.result_eq]
  exact one_mul _

theorem toNat_pow (b : Word) (n : ℕ) : (b ^ n).toNat = b.toNat ^ n % 2 ^ 256 := by
  induction n with
  | zero => rfl
  | succ n ih => rw [pow_succ, BitVec.toNat_mul, ih, Nat.mod_mul_mod, pow_succ b.toNat]

/-- The loop ends within 256 rounds, and leaves the power up to a multiple of
`2 ^ 256`. -/
theorem exp_exact (base exponent : Word) :
    (∃ n ≤ 256, Squaring n base exponent 1#256 (exp base exponent)) ∧
      (exp base exponent).toNat = base.toNat ^ exponent.toNat % 2 ^ 256 := by
  refine ⟨squaring_exp base exponent, ?_⟩
  rw [exp_eq_pow, toNat_pow]

example : exp 0#256 0#256 = 1#256 := by decide

/-! ## Powers of two -/

section

variable (s v : Word)

theorem exp_two : exp 2#256 s = BitVec.twoPow 256 s.toNat := by
  apply BitVec.eq_of_toNat_eq
  rw [exp_eq_pow, toNat_pow, BitVec.toNat_twoPow]
  rfl

theorem exp_two_eq_zero_iff : exp 2#256 s = 0#256 ↔ 256 ≤ s.toNat := by
  rw [exp_two, ← BitVec.toNat_inj, BitVec.toNat_twoPow, BitVec.toNat_zero]
  constructor
  · intro hzero
    by_contra hshort
    have hpower : 2 ^ s.toNat < 2 ^ 256 := Nat.pow_lt_pow_right (by decide) (not_le.mp hshort)
    rw [Nat.mod_eq_of_lt hpower] at hzero
    exact (Nat.two_pow_pos s.toNat).ne' hzero
  · exact fun hlong ↦ Nat.mod_eq_zero_of_dvd (pow_dvd_pow 2 hlong)

/-- The guard of the shift only spares the work of shifting everything out. -/
theorem shl_eq_shiftLeft : shl s v = v <<< s.toNat := by
  rw [shl]
  split
  case isTrue => rfl
  case isFalse hlong => exact (BitVec.shiftLeft_eq_zero (not_lt.mp hlong)).symm

theorem shl_eq_mul_exp : shl s v = mul v (exp 2#256 s) := by
  rw [shl_eq_shiftLeft, BitVec.shiftLeft_eq_mul_twoPow, ← exp_two, mul]

theorem shr_eq_div_exp : shr s v = div v (exp 2#256 s) := by
  rw [shr, div]
  split
  case isTrue hshort =>
    have hne : exp 2#256 s ≠ 0#256 := mt (exp_two_eq_zero_iff s).mp (not_le.mpr hshort)
    rw [if_neg hne, exp_two, BitVec.udiv_twoPow_eq_of_lt hshort]
  case isFalse hlong =>
    -- The power has wrapped to zero, and a quotient by zero is zero.
    rw [if_pos ((exp_two_eq_zero_iff s).mpr (not_lt.mp hlong))]

end

/-- Shifts are the product with a power of two and the quotient by it, for shifts of any
number of places that a word can name. -/
theorem shl_shr_eq_mul_div_exp (s v : Word) :
    shl s v = mul v (exp 2#256 s) ∧ shr s v = div v (exp 2#256 s) :=
  ⟨shl_eq_mul_exp s v, shr_eq_div_exp s v⟩

end Word

end WordMachine
