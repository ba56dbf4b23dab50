import WordMachine.Word.Signed

/-!
# Signed division

A sign and a magnitude make an integer, and the one a word is split into is the one
it stands for in two's complement.  So the quotient of magnitudes with the sign put
back is the quotient of integers toward zero, and likewise for remainders.  The
quotient of `-2^255` by `-1` leaves the range of a word and wraps; a remainder never
does.
-/

namespace WordMachine

namespace SignedMagnitude

/-- The integer of that sign at that distance from zero. -/
def value (s : SignedMagnitude) : Int :=
  if s.negative then -(s.magnitude.toNat : Int) else s.magnitude.toNat

@[simp] theorem value_negative (m : Word) : value ⟨true, m⟩ = -(m.toNat : Int) := rfl

@[simp] theorem value_nonnegative (m : Word) : value ⟨false, m⟩ = m.toNat := rfl

theorem value_quotient (x y : SignedMagnitude) :
    value ⟨x.negative != y.negative, x.magnitude / y.magnitude⟩ = x.value.tdiv y.value := by
  obtain ⟨xneg, xmag⟩ := x
  obtain ⟨yneg, ymag⟩ := y
  have hmagnitude : ((xmag / ymag).toNat : Int) = (xmag.toNat : Int).tdiv ymag.toNat := by
    rw [BitVec.toNat_udiv, Int.ofNat_tdiv]
  cases xneg <;> cases yneg <;>
    simp only [Bool.bne_true, Bool.bne_false, Bool.not_true, Bool.not_false, value_negative,
      value_nonnegative, hmagnitude, Int.neg_tdiv, Int.tdiv_neg, Int.neg_neg]

/-- The sign of the divisor plays no part. -/
theorem value_remainder (x y : SignedMagnitude) :
    value ⟨x.negative, x.magnitude % y.magnitude⟩ = x.value.tmod y.value := by
  obtain ⟨xneg, xmag⟩ := x
  obtain ⟨yneg, ymag⟩ := y
  have hmagnitude : ((xmag % ymag).toNat : Int) = (xmag.toNat : Int).tmod ymag.toNat := by
    rw [BitVec.toNat_umod, Int.ofNat_tmod]
  cases xneg <;> cases yneg <;>
    simp only [value_negative, value_nonnegative, hmagnitude, Int.neg_tmod, Int.tmod_neg]

end SignedMagnitude

namespace Word

theorem isNegative_eq_msb (w : Word) : w.isNegative = w.msb :=
  (BitVec.msb_eq_getLsbD_last w).symm

theorem negate_eq_neg (w : Word) : w.negate = -w := (BitVec.neg_eq_not_add w).symm

/-- A word splits into the sign and the magnitude of the integer it stands for. -/
theorem value_toSigned (w : Word) : w.toSigned.value = w.toInt := by
  rw [BitVec.toInt_eq_msb_cond, toSigned, isNegative_eq_msb]
  split
  case isTrue hsign =>
    -- A negative word is not zero, so that its negative is `2^256` less the word.
    have hhalf := BitVec.toNat_ge_of_msb_true hsign
    rw [SignedMagnitude.value_negative, negate_eq_neg, BitVec.toNat_neg]
    omega
  case isFalse => rfl

/-- A sign and a magnitude are put together to the encoding of their integer. -/
theorem ofSigned_eq_ofInt (s : SignedMagnitude) : ofSigned s = BitVec.ofInt 256 s.value := by
  obtain ⟨neg, mag⟩ := s
  have hmagnitude : BitVec.ofInt 256 mag.toNat = mag := by
    rw [BitVec.ofInt_natCast, BitVec.ofNat_toNat, BitVec.setWidth_eq]
  cases neg with
  | false => exact hmagnitude.symm
  | true =>
      rw [SignedMagnitude.value_negative, BitVec.ofInt_neg, hmagnitude]
      exact negate_eq_neg mag

theorem toInt_eq_zero_iff {w : Word} : w.toInt = 0 ↔ w = 0#256 := by
  rw [← BitVec.toInt_inj, BitVec.toInt_zero]

section

variable {a b : Word}

theorem sdiv_eq_ofInt (hb : b ≠ 0#256) : sdiv a b = BitVec.ofInt 256 (a.toInt.tdiv b.toInt) := by
  rw [sdiv, if_neg hb, ofSigned_eq_ofInt, SignedMagnitude.value_quotient, value_toSigned,
    value_toSigned]

theorem smod_eq_ofInt (hb : b ≠ 0#256) : smod a b = BitVec.ofInt 256 (a.toInt.tmod b.toInt) := by
  rw [smod, if_neg hb, ofSigned_eq_ofInt, SignedMagnitude.value_remainder, value_toSigned,
    value_toSigned]

/-- A remainder is nearer to zero than the divisor, so that none wraps. -/
theorem toInt_smod (hb : b ≠ 0#256) : (smod a b).toInt = a.toInt.tmod b.toInt := by
  have hdivisor : b.toInt ≠ 0 := mt toInt_eq_zero_iff.mp hb
  have hlower := b.le_toInt
  have hupper := b.toInt_lt
  have hnearer : (a.toInt.tmod b.toInt).natAbs < b.toInt.natAbs := by
    rw [Int.natAbs_tmod]
    exact Nat.mod_lt _ (Int.natAbs_pos.mpr hdivisor)
  rw [smod_eq_ofInt hb]
  exact BitVec.toInt_ofInt_eq_self (by decide) (by omega) (by omega)

theorem sign_smod (hb : b ≠ 0#256) :
    (smod a b).toInt = 0 ∨ (smod a b).toInt.sign = a.toInt.sign := by
  rw [toInt_smod hb, ← Int.sign_eq_zero_iff_zero, Int.sign_tmod]
  split
  · exact .inl rfl
  · exact .inr rfl

/-- What the quotient loses by wrapping, the product with the divisor does not show. -/
theorem add_mul_sdiv_smod (hb : b ≠ 0#256) : add (mul (sdiv a b) b) (smod a b) = a := by
  calc add (mul (sdiv a b) b) (smod a b)
    _ = BitVec.ofInt 256 (a.toInt.tdiv b.toInt) * BitVec.ofInt 256 b.toInt +
          BitVec.ofInt 256 (a.toInt.tmod b.toInt) := by
        rw [add, mul, sdiv_eq_ofInt hb, smod_eq_ofInt hb, BitVec.ofInt_toInt]
    _ = BitVec.ofInt 256 (a.toInt.tdiv b.toInt * b.toInt + a.toInt.tmod b.toInt) := by
        rw [BitVec.ofInt_add, BitVec.ofInt_mul]
    _ = a := by rw [Int.tdiv_mul_add_tmod, BitVec.ofInt_toInt]

end

/-- Quotient and remainder are those of the integers toward zero, encoded again, and
zero for a divisor of zero. -/
theorem sdiv_smod_exact (a b : Word) :
    (b.toInt = 0 → sdiv a b = 0#256 ∧ smod a b = 0#256) ∧
      (b.toInt ≠ 0 →
        sdiv a b = BitVec.ofInt 256 (a.toInt.tdiv b.toInt) ∧
        smod a b = BitVec.ofInt 256 (a.toInt - b.toInt * a.toInt.tdiv b.toInt) ∧
        ((smod a b).toInt = 0 ∨ (smod a b).toInt.sign = a.toInt.sign)) ∧
      (b ≠ 0#256 → add (mul (sdiv a b) b) (smod a b) = a) := by
  refine ⟨fun hzero ↦ ?_, fun hdivisor ↦ ?_, add_mul_sdiv_smod⟩
  · have hb : b = 0#256 := toInt_eq_zero_iff.mp hzero
    exact ⟨if_pos hb, if_pos hb⟩
  · have hb : b ≠ 0#256 := mt toInt_eq_zero_iff.mpr hdivisor
    refine ⟨sdiv_eq_ofInt hb, ?_, sign_smod hb⟩
    rw [← Int.tmod_def]
    exact smod_eq_ofInt hb

/-- The word of `-2^255`. -/
def lowest : Word := 1#256 <<< 255

/-- The lowest integer divided by `-1` gives one more than the highest, which has the
encoding of the lowest. -/
theorem sdiv_smod_exact_lowest :
    lowest.toInt = -(Nat.pow 2 255 : Nat) ∧ maximum.toInt = -1 ∧
      sdiv lowest maximum = BitVec.ofInt 256 (Nat.pow 2 255 : Nat) ∧
      add (mul (sdiv lowest maximum) maximum) (smod lowest maximum) = lowest ∧
      sdiv lowest 0#256 = 0#256 ∧ smod lowest 0#256 = 0#256 := by
  have hlowest : lowest.toInt = -(Nat.pow 2 255 : Nat) := by decide
  have hmaximum : maximum.toInt = -1 := by decide
  obtain ⟨-, hdivided, hback⟩ := sdiv_smod_exact lowest maximum
  obtain ⟨hquotient, -, -⟩ := hdivided (by rw [hmaximum]; decide)
  have hwide : (-(Nat.pow 2 255 : Nat) : Int).tdiv (-1) = (Nat.pow 2 255 : Nat) := by
    rw [Int.neg_tdiv, Int.tdiv_neg, Int.neg_neg, Int.tdiv_one]
  rw [hlowest, hmaximum, hwide] at hquotient
  exact ⟨hlowest, hmaximum, hquotient, hback (by decide),
    (sdiv_smod_exact lowest 0#256).1 BitVec.toInt_zero⟩

end Word

end WordMachine
