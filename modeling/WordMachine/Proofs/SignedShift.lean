import Mathlib.Data.BitVec
import Mathlib.Data.Int.ModEq
import WordMachine.Proofs.SignedDivision

/-!
# Arithmetic shift and sign extension

Both repeat one bit of a word upward: the shift repeats the sign over the places that
it vacates, the extension repeats the sign of a byte over the bytes above it.  Each is
described by the place that every bit of the result is taken from.  Shifts with their
branches for no places, some and all then compose by adding places, and extending is a
shift up and back down.
-/

namespace WordMachine

namespace Word

/-! ## Where the bits of a shift come from -/

section

variable {s v : Word} {i : ℕ}

theorem getLsbD_shiftLeft_of_lt (hi : i < 256) (n : ℕ) :
    (v <<< n).getLsbD i = (decide (n ≤ i) && v.getLsbD (i - n)) := by
  rw [BitVec.getLsbD_shiftLeft, decide_eq_true hi, Bool.true_and, ← decide_not]
  simp only [Nat.not_lt]

theorem getLsbD_shl (hi : i < 256) :
    (shl s v).getLsbD i = (decide (s.toNat ≤ i) && v.getLsbD (i - s.toNat)) := by
  rw [shl]
  split
  case isTrue => exact getLsbD_shiftLeft_of_lt hi s.toNat
  case isFalse hs =>
    rw [decide_eq_false (by omega), Bool.false_and, BitVec.getLsbD_zero]

theorem getLsbD_maximum (hi : i < 256) : maximum.getLsbD i = true := by
  rw [maximum, BitVec.getLsbD_allOnes, decide_eq_true hi]

theorem getLsbD_maximum_shiftLeft (hi : i < 256) (n : ℕ) :
    (maximum <<< n).getLsbD i = decide (n ≤ i) := by
  rw [getLsbD_shiftLeft_of_lt hi, getLsbD_maximum (by omega), Bool.and_true]

/-- What is filled in stays clear of the bits that are left. -/
theorem getLsbD_sar_of_lt (h : s.toNat + i < 256) :
    (sar s v).getLsbD i = v.getLsbD (s.toNat + i) := by
  have hs : s.toNat < 256 := by omega
  have hclear : (maximum <<< (256 - s.toNat)).getLsbD i = false := by
    rw [getLsbD_maximum_shiftLeft (by omega), decide_eq_false_iff_not]
    omega
  simp only [sar, hs, if_true]
  split
  · rw [BitVec.getLsbD_or, BitVec.getLsbD_ushiftRight, hclear, Bool.or_false]
  · rw [BitVec.getLsbD_ushiftRight]

theorem getLsbD_sar_of_ge (hi : i < 256) (h : 256 ≤ s.toNat + i) :
    (sar s v).getLsbD i = v.isNegative := by
  have hnothing : (v >>> s.toNat).getLsbD i = false := by
    rw [BitVec.getLsbD_ushiftRight, BitVec.getLsbD_of_ge v _ h]
  cases hsign : v.isNegative with
  | false => by_cases hs : s.toNat < 256 <;> simp [sar, hsign, hs, hnothing]
  | true =>
      by_cases hs : s.toNat < 256
      · have hpositive : 0 < s.toNat := by omega
        have hfilled : (maximum <<< (256 - s.toNat)).getLsbD i = true := by
          rw [getLsbD_maximum_shiftLeft hi, decide_eq_true_iff]
          omega
        simp [sar, hsign, hs, hpositive, hfilled]
      · simp [sar, hsign, hs, getLsbD_maximum hi, -BitVec.getLsbD_eq_getElem]

end

/-- Places beyond the highest bit take the highest bit. -/
theorem getLsbD_sar (s v : Word) {i : ℕ} (hi : i < 256) :
    (sar s v).getLsbD i = v.getLsbD (min (s.toNat + i) 255) := by
  by_cases h : s.toNat + i < 256
  · rw [getLsbD_sar_of_lt h, Nat.min_eq_left (by omega)]
  · rw [getLsbD_sar_of_ge hi (by omega), Nat.min_eq_right (by omega), isNegative]

/-! ## Shifting is dividing -/

theorem sar_eq_sshiftRight (s v : Word) : sar s v = v.sshiftRight s.toNat := by
  apply BitVec.eq_of_getLsbD_eq
  intro i hi
  rw [BitVec.getLsbD_sshiftRight, ← isNegative_eq_msb, decide_eq_false (by omega), Bool.not_false,
    Bool.true_and]
  split
  case isTrue h => exact getLsbD_sar_of_lt h
  case isFalse h => exact getLsbD_sar_of_ge hi (by omega)

theorem toInt_sar (s v : Word) : (sar s v).toInt = v.toInt.fdiv (2 ^ s.toNat) := by
  have hpower : (0 : ℤ) ≤ 2 ^ s.toNat := Int.pow_nonneg (by decide)
  rw [sar_eq_sshiftRight, BitVec.toInt_sshiftRight, Int.shiftRight_eq_div_pow,
    Int.fdiv_eq_ediv_of_nonneg _ hpower, Nat.cast_pow, Nat.cast_ofNat]

theorem sar_sar (s t v : Word) (h : s.toNat + t.toNat < 2 ^ 256) :
    sar s (sar t v) = sar (add s t) v := by
  have hsum : (add s t).toNat = s.toNat + t.toNat := BitVec.toNat_add_of_lt h
  apply BitVec.eq_of_getLsbD_eq
  intro i hi
  rw [getLsbD_sar s _ hi, getLsbD_sar t v (by omega), getLsbD_sar _ v hi, hsum]
  congr 1
  omega

/-- The arithmetic shift by `s` is the division by `2 ^ s` with the quotient rounded
down, for every word `s`, and two shifts are the shift by their sum. -/
theorem sar_exact (s v : Word) :
    sar s v = BitVec.ofInt 256 (v.toInt.fdiv (2 ^ s.toNat)) ∧
      ∀ t : Word, s.toNat + t.toNat < 2 ^ 256 → sar s (sar t v) = sar (add s t) v := by
  refine ⟨?_, fun t ↦ sar_sar s t v⟩
  rw [← toInt_sar, BitVec.ofInt_toInt]

/-- Neither shift alone takes the lowest integer to `-1`, and both together do. -/
theorem sar_exact_lowest :
    (200#256).toNat + (100#256).toNat < 2 ^ 256 ∧
      sar 200#256 (sar 100#256 lowest) = sar 300#256 lowest ∧
      sar 300#256 lowest = BitVec.ofInt 256 (-1) := by
  have hsum : (200#256).toNat + (100#256).toNat < 2 ^ 256 := by decide
  exact ⟨hsum, (sar_exact 200#256 lowest).2 100#256 hsum, by decide⟩

/-! ## Extending the sign of a byte -/

/-- The bits below place `n`. -/
theorem getLsbD_mask {i : ℕ} (hi : i < 256) (n : ℕ) :
    (1#256 <<< n - 1#256).getLsbD i = decide (i < n) := by
  have hmask : 1#256 <<< n - 1#256 = ~~~(maximum <<< n) := by
    rw [← BitVec.not_neg, ← BitVec.shiftLeft_neg, BitVec.neg_one_eq_allOnes, maximum]
  rw [hmask, BitVec.getLsbD_not, getLsbD_maximum_shiftLeft hi, decide_eq_true hi, Bool.true_and,
    ← decide_not]
  simp only [Nat.not_le]

/-- Places above byte `b` take its highest bit. -/
theorem getLsbD_signExtend (b x : Word) {i : ℕ} (hi : i < 256) :
    (signExtend b x).getLsbD i = x.getLsbD (min i (8 * b.toNat + 7)) := by
  by_cases hb : b.toNat < 31
  · have hmask := getLsbD_mask hi (8 * b.toNat + 7 + 1)
    simp only [signExtend, hb, if_true, Nat.mul_comm b.toNat 8]
    -- Up to the sign either branch keeps the bit; above it only the branch matters.
    by_cases hlow : i ≤ 8 * b.toNat + 7
    · rw [decide_eq_true (by omega)] at hmask
      rw [Nat.min_eq_left hlow]
      split
      · rw [BitVec.getLsbD_or, BitVec.getLsbD_not, hmask, Bool.not_true, Bool.and_false,
          Bool.or_false]
      · rw [BitVec.getLsbD_and, hmask, Bool.and_true]
    · rw [decide_eq_false (by omega)] at hmask
      rw [Nat.min_eq_right (by omega)]
      split
      case isTrue hsign =>
        rw [BitVec.getLsbD_or, BitVec.getLsbD_not, hmask, Bool.not_false, Bool.and_true,
          decide_eq_true hi, Bool.or_true, hsign]
      case isFalse hsign =>
        rw [BitVec.getLsbD_and, hmask, Bool.and_false, eq_false_of_ne_true hsign]
  · rw [signExtend, if_neg hb, Nat.min_eq_left (by omega)]

theorem signExtend_of_ge {b : Word} (hb : 31 ≤ b.toNat) (x : Word) : signExtend b x = x :=
  if_neg (Nat.not_lt.mpr hb)

/-- Shifting up by as much as there is above the byte puts its sign on top, and
shifting down again repeats it. -/
theorem signExtend_eq_sar_shl {b : Word} (hb : b.toNat < 31) (x : Word) :
    signExtend b x =
      sar (BitVec.ofNat 256 (248 - 8 * b.toNat)) (shl (BitVec.ofNat 256 (248 - 8 * b.toNat)) x) := by
  have hshift : (BitVec.ofNat 256 (248 - 8 * b.toNat)).toNat = 248 - 8 * b.toNat := by
    rw [BitVec.toNat_ofNat, Nat.mod_eq_of_lt]
    omega
  apply BitVec.eq_of_getLsbD_eq
  intro i hi
  rw [getLsbD_signExtend b x hi, getLsbD_sar _ _ hi, getLsbD_shl (by omega), hshift,
    decide_eq_true (by omega), Bool.true_and]
  congr 1
  omega

/-- The integer that the lowest `n + 1` bits of a word stand for in two's complement. -/
structure LowInteger (n : ℕ) (x : Word) (z : ℤ) : Prop where
  lower : -2 ^ n ≤ z
  upper : z < 2 ^ n
  congruent : z ≡ x.toNat [ZMOD 2 ^ (n + 1)]

theorem LowInteger.unique {n : ℕ} {x : Word} {y z : ℤ} (hy : LowInteger n x y)
    (hz : LowInteger n x z) : y = z := by
  obtain ⟨hylower, hyupper, hycongruent⟩ := hy
  obtain ⟨hzlower, hzupper, hzcongruent⟩ := hz
  have hdvd : (2 : ℤ) ^ (n + 1) ∣ y - z := (hzcongruent.trans hycongruent.symm).dvd
  have hnear : |y - z| < 2 ^ (n + 1) := by
    rw [pow_succ, abs_lt]
    omega
  exact sub_eq_zero.mp (Int.eq_zero_of_abs_lt_dvd hdvd hnear)

theorem lowInteger_toInt_setWidth (n : ℕ) (x : Word) :
    LowInteger n x (x.setWidth (n + 1)).toInt where
  lower := BitVec.le_toInt _
  upper := BitVec.toInt_lt
  congruent := by
    have hmod := Int.bmod_emod (x := x.toNat) (m := 2 ^ (n + 1))
    rw [BitVec.toInt_setWidth]
    exact_mod_cast hmod

theorem signExtend_eq_ofInt (b x : Word) :
    signExtend b x = BitVec.ofInt 256 (x.setWidth (8 * b.toNat + 7 + 1)).toInt := by
  have hextend : BitVec.ofInt 256 (x.setWidth (8 * b.toNat + 7 + 1)).toInt =
      (x.setWidth (8 * b.toNat + 7 + 1)).signExtend 256 := rfl
  apply BitVec.eq_of_getLsbD_eq
  intro i hi
  rw [hextend, getLsbD_signExtend b x hi, BitVec.getLsbD_signExtend, decide_eq_true hi,
    Bool.true_and]
  split
  case isTrue hlow =>
    rw [BitVec.getLsbD_setWidth, decide_eq_true hlow, Bool.true_and, Nat.min_eq_left (by omega)]
  case isFalse hhigh =>
    rw [BitVec.msb_setWidth, decide_eq_true (Nat.succ_pos _), Bool.true_and,
      Nat.min_eq_right (by omega), Nat.add_sub_cancel]

/-- Below byte 31 the extension is the encoding of the integer that the bytes up to `b`
stand for, and the shift up and back down; from byte 31 on it is the word itself. -/
theorem signExtend_exact (b x : Word) :
    (b.toNat < 31 →
        (∃ z, LowInteger (8 * b.toNat + 7) x z ∧ (∀ y, LowInteger (8 * b.toNat + 7) x y → y = z) ∧
          signExtend b x = BitVec.ofInt 256 z) ∧
        signExtend b x = sar (BitVec.ofNat 256 (248 - 8 * b.toNat))
          (shl (BitVec.ofNat 256 (248 - 8 * b.toNat)) x)) ∧
      (31 ≤ b.toNat → signExtend b x = x) := by
  refine ⟨fun hb ↦ ⟨?_, signExtend_eq_sar_shl hb x⟩, fun hb ↦ signExtend_of_ge hb x⟩
  have hlow := lowInteger_toInt_setWidth (8 * b.toNat + 7) x
  exact ⟨_, hlow, fun y hy ↦ hy.unique hlow, signExtend_eq_ofInt b x⟩

/-- Two bytes of three, which stand for a negative integer, and the whole word. -/
theorem signExtend_exact_twoBytes :
    signExtend 1#256 0x180ff#256 = BitVec.ofInt 256 (-0x7f01) ∧
      signExtend 1#256 0x180ff#256 = sar 240#256 (shl 240#256 0x180ff#256) ∧
      signExtend 31#256 0x180ff#256 = 0x180ff#256 := by
  obtain ⟨⟨z, -, hunique, hencoded⟩, hshifts⟩ :=
    (signExtend_exact 1#256 0x180ff#256).1 (by decide)
  have hz : -0x7f01 = z := hunique (-0x7f01) ⟨by decide, by decide, by decide⟩
  rw [← hz] at hencoded
  exact ⟨hencoded, hshifts, (signExtend_exact 31#256 0x180ff#256).2 (by decide)⟩

end Word

end WordMachine
