import Mathlib.Data.BitVec
import WordMachine.Proofs.SignedDivision

/-!
# The signed order

A word and the integer it stands for determine each other, and its sign and magnitude
are the sign and the absolute value of that integer.  The comparisons never form them:
they look at the two sign bits and, where these agree, at the words as unsigned numbers.
Two words of one sign are both ahead of their integers by the same amount, so that this
is the order of the integers, in which of any two exactly one of less, greater and equal
holds.
-/

namespace WordMachine

namespace Word

/-! ## Sign and magnitude -/

section

variable {w : Word}

theorem toInt_of_isNegative (h : w.isNegative = true) : w.toInt = w.toNat - 2 ^ 256 := by
  rw [BitVec.toInt_eq_msb_cond, ← isNegative_eq_msb, if_pos h]
  rfl

theorem toInt_of_not_isNegative (h : w.isNegative = false) : w.toInt = w.toNat :=
  BitVec.toInt_eq_toNat_of_msb (isNegative_eq_msb w ▸ h)

end

theorem toNat_magnitude (w : Word) : w.toSigned.magnitude.toNat = w.toInt.natAbs := by
  rw [← value_toSigned, SignedMagnitude.value]
  split <;> omega

theorem toNat_magnitude_le (w : Word) : w.toSigned.magnitude.toNat ≤ 2 ^ 255 := by
  have hlower := w.le_toInt
  have hupper := w.toInt_lt
  rw [toNat_magnitude]
  omega

example : toSigned (1#256 <<< 255) = ⟨true, 1#256 <<< 255⟩ := by decide

theorem ofSigned_toSigned (w : Word) : ofSigned w.toSigned = w := by
  rw [ofSigned_eq_ofInt, value_toSigned, BitVec.ofInt_toInt]

/-! ## Comparison -/

section

variable (a b : Word)

theorem signedLess_iff : signedLess a b = true ↔ a.toInt < b.toInt := by
  have ha := a.isLt
  have hb := b.isLt
  -- With different signs the integers lie on different sides of zero.
  cases hsa : a.isNegative <;> cases hsb : b.isNegative <;> simp only [signedLess, hsa, hsb]
  case false.false =>
    rw [toInt_of_not_isNegative hsa, toInt_of_not_isNegative hsb, decide_eq_true_iff]
    omega
  case false.true =>
    rw [toInt_of_not_isNegative hsa, toInt_of_isNegative hsb]
    exact iff_of_false Bool.false_ne_true (by omega)
  case true.false =>
    rw [toInt_of_isNegative hsa, toInt_of_not_isNegative hsb]
    exact iff_of_true trivial (by omega)
  case true.true =>
    rw [toInt_of_isNegative hsa, toInt_of_isNegative hsb, decide_eq_true_iff]
    omega

theorem ofBool_eq_one_iff (p : Bool) : ofBool p = 1#256 ↔ p = true := by
  cases p <;> decide

theorem ofBool_eq_zero_iff (p : Bool) : ofBool p = 0#256 ↔ ¬p = true := by
  cases p <;> decide

theorem slt_eq_one_iff : slt a b = 1#256 ↔ a.toInt < b.toInt := by
  rw [slt, ofBool_eq_one_iff, signedLess_iff]

theorem slt_eq_zero_iff : slt a b = 0#256 ↔ ¬a.toInt < b.toInt := by
  rw [slt, ofBool_eq_zero_iff, signedLess_iff]

theorem sgt_eq_slt : sgt a b = slt b a := rfl

theorem eq_eq_one_iff : eq a b = 1#256 ↔ a.toInt = b.toInt := by
  rw [eq, ofBool_eq_one_iff, beq_iff_eq, BitVec.toInt_inj]

theorem eq_eq_zero_iff : eq a b = 0#256 ↔ ¬a.toInt = b.toInt := by
  rw [eq, ofBool_eq_zero_iff, beq_iff_eq, BitVec.toInt_inj]

/-- Of two integers one is less, or they are equal, and no two of these hold together. -/
theorem slt_sgt_eq_cases :
    (slt a b = 1#256 ∧ sgt a b = 0#256 ∧ eq a b = 0#256) ∨
      (slt a b = 0#256 ∧ sgt a b = 1#256 ∧ eq a b = 0#256) ∨
      (slt a b = 0#256 ∧ sgt a b = 0#256 ∧ eq a b = 1#256) := by
  simp only [sgt_eq_slt, slt_eq_one_iff, slt_eq_zero_iff, eq_eq_one_iff, eq_eq_zero_iff]
  omega

end

/-- A word is put together again from its sign and its magnitude, which are those of its
integer and at most `2^255`.  The signed comparisons are those of the integers: of less,
greater and equal one answers one, and the other two answer zero. -/
theorem signed_view_and_order :
    (∀ v : Word,
        v.toSigned.magnitude.toNat ≤ 2 ^ 255 ∧
        v.toInt = (if v.toSigned.negative then -(v.toSigned.magnitude.toNat : ℤ)
          else v.toSigned.magnitude.toNat) ∧
        ofSigned v.toSigned = v) ∧
      ∀ a b : Word,
        (slt a b = 1#256 ↔ a.toInt < b.toInt) ∧
        sgt a b = slt b a ∧
        ((slt a b = 1#256 ∧ sgt a b = 0#256 ∧ eq a b = 0#256) ∨
          (slt a b = 0#256 ∧ sgt a b = 1#256 ∧ eq a b = 0#256) ∨
          (slt a b = 0#256 ∧ sgt a b = 0#256 ∧ eq a b = 1#256)) := by
  constructor
  · intro v
    exact ⟨toNat_magnitude_le v, (value_toSigned v).symm, ofSigned_toSigned v⟩
  · intro a b
    exact ⟨slt_eq_one_iff a b, sgt_eq_slt a b, slt_sgt_eq_cases a b⟩

end Word

end WordMachine
