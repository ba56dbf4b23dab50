import WordMachine.Proofs.StrictWords

/-!
# Sums and products modulo a word

Both are taken at twice the width, reduced there and narrowed again.  Twice the width has
room for the sum and the product of any two words, and a remainder is smaller than the
word it is a remainder by.  So the high half of what is narrowed is zero, byte for byte,
and the result is the remainder of the whole number.
-/

namespace WordMachine

namespace Strict

section

variable {n : Nat} {a b c : BitVec n}

/-- Where a strict sum has an answer, nothing has wrapped. -/
theorem toNat_of_sum (h : sum a b = some c) : c.toNat = a.toNat + b.toNat := by
  rw [sum] at h
  split at h
  case isTrue hroom =>
    cases h
    exact BitVec.toNat_add_of_lt hroom
  case isFalse => cases h

theorem toNat_of_product (h : product a b = some c) : c.toNat = a.toNat * b.toNat := by
  rw [product] at h
  split at h
  case isTrue hroom =>
    cases h
    exact BitVec.toNat_mul_of_lt hroom
  case isFalse => cases h

end

end Strict

namespace Word

theorem toNat_widen (w : Word) : (w.setWidth 512).toNat = w.toNat :=
  BitVec.toNat_setWidth_of_le (by omega)

theorem toNat_wide_sum (a b : Word) :
    (a.setWidth 512 + b.setWidth 512).toNat = a.toNat + b.toNat := by
  rw [Strict.toNat_of_sum (Strict.sum_setWidth a b (by omega)), toNat_widen, toNat_widen]

theorem toNat_wide_product (a b : Word) :
    (a.setWidth 512 * b.setWidth 512).toNat = a.toNat * b.toNat := by
  rw [Strict.toNat_of_product (Strict.product_setWidth a b (by omega)), toNat_widen, toNat_widen]

/-- The way from a number, held at twice the width, to its remainder as a word: nothing
of the number is lost in `wide`, the bytes of the remainder that narrowing leaves out are
zero, and those it keeps are the result. -/
structure Reduces (number : Nat) (wide : BitVec 512) (n result : Word) : Prop where
  whole : wide.toNat = number
  dropped : (lowBytes 64 (wide % n.setWidth 512).toNat []).take 32 = List.replicate 32 0
  kept : Strict.narrow (wide % n.setWidth 512) = some result

section

variable (wide : BitVec 512) {n : Word}

theorem toNat_wide_remainder : (wide % n.setWidth 512).toNat = wide.toNat % n.toNat := by
  rw [BitVec.toNat_umod, toNat_widen]

theorem toNat_wide_remainder_lt (hn : n ≠ 0#256) :
    (wide % n.setWidth 512).toNat < Nat.pow 256 32 := by
  have hpositive : 0 < n.toNat := Nat.pos_of_ne_zero fun hzero ↦ hn (BitVec.eq_of_toNat_eq hzero)
  rw [toNat_wide_remainder]
  exact Nat.lt_trans (Nat.mod_lt _ hpositive) n.isLt

variable {wide} {number : Nat}

theorem reduces_of_toNat_eq (hn : n ≠ 0#256) (hwhole : wide.toNat = number) :
    Reduces number wide n ((wide % n.setWidth 512).setWidth 256) where
  whole := hwhole
  dropped := by
    -- The upper half of the digits are those of the quotient by `256 ^ 32`, which is zero.
    have hhigh := Nat.div_eq_of_lt (toNat_wide_remainder_lt wide hn)
    rw [show 64 = 32 + 32 from rfl, lowBytes_add, hhigh, lowBytes_zero]
    exact List.take_left' List.length_replicate
  kept := Strict.narrow_eq _

theorem Reduces.toNat_eq {result : Word} (h : Reduces number wide n result) (hn : n ≠ 0#256) :
    result.toNat = number % n.toNat := by
  obtain ⟨rfl, -, hkept⟩ := h
  rw [Strict.narrow_eq] at hkept
  cases hkept
  rw [BitVec.toNat_setWidth, Nat.mod_eq_of_lt (toNat_wide_remainder_lt wide hn),
    toNat_wide_remainder]

end

theorem reduces_addMod (a b : Word) {n : Word} (hn : n ≠ 0#256) :
    Reduces (a.toNat + b.toNat) (a.setWidth 512 + b.setWidth 512) n (addMod a b n) := by
  rw [addMod, if_neg hn]
  exact reduces_of_toNat_eq hn (toNat_wide_sum a b)

theorem reduces_mulMod (a b : Word) {n : Word} (hn : n ≠ 0#256) :
    Reduces (a.toNat * b.toNat) (a.setWidth 512 * b.setWidth 512) n (mulMod a b n) := by
  rw [mulMod, if_neg hn]
  exact reduces_of_toNat_eq hn (toNat_wide_product a b)

/-- Sum and product are reduced as numbers without a bound, on a way that loses nothing;
modulo zero both are zero. -/
theorem addMod_mulMod_exact (a b n : Word) :
    (n ≠ 0#256 →
        (addMod a b n).toNat = (a.toNat + b.toNat) % n.toNat ∧
        (mulMod a b n).toNat = a.toNat * b.toNat % n.toNat ∧
        Reduces (a.toNat + b.toNat) (a.setWidth 512 + b.setWidth 512) n (addMod a b n) ∧
        Reduces (a.toNat * b.toNat) (a.setWidth 512 * b.setWidth 512) n (mulMod a b n)) ∧
      (n = 0#256 → addMod a b n = 0#256 ∧ mulMod a b n = 0#256) := by
  refine ⟨fun hn ↦ ?_, fun hzero ↦ ⟨if_pos hzero, if_pos hzero⟩⟩
  have hsum := reduces_addMod a b hn
  have hproduct := reduces_mulMod a b hn
  exact ⟨hsum.toNat_eq hn, hproduct.toNat_eq hn, hsum, hproduct⟩

/-- Modulo two less than the last word, the last word is two.  Its sum and its product
with itself are four; wrapped before they are reduced, both would be one. -/
theorem addMod_mulMod_exact_maximum :
    maximum - 2#256 ≠ 0#256 ∧
      addMod maximum maximum (maximum - 2#256) = 4#256 ∧
      mulMod maximum maximum (maximum - 2#256) = 4#256 ∧
      mod (add maximum maximum) (maximum - 2#256) = 1#256 ∧
      mod (mul maximum maximum) (maximum - 2#256) = 1#256 ∧
      addMod maximum maximum 0#256 = 0#256 ∧ mulMod maximum maximum 0#256 = 0#256 := by
  have hn : maximum - 2#256 ≠ 0#256 := by decide
  obtain ⟨hsum, hproduct, -, -⟩ := (addMod_mulMod_exact maximum maximum _).1 hn
  refine ⟨hn, BitVec.eq_of_toNat_eq ?_, BitVec.eq_of_toNat_eq ?_, by decide, by decide,
    (addMod_mulMod_exact maximum maximum 0#256).2 rfl⟩
  · rw [hsum]
    decide
  · rw [hproduct]
    decide

end Word

end WordMachine
