import Mathlib.Algebra.BigOperators.Intervals
import Mathlib.Data.BitVec
import WordMachine.Proofs.WordAccess

/-!
# The bytes of a word

A byte of a word can be picked by its number, looked up in the written form of the word,
or shifted down to the low end and masked.  The first two count from the high end and
the third from the low one, so that byte `n` is the base-256 digit at place `31 - n`.
Together the bytes make up the word.
-/

namespace WordMachine

namespace Word

section

variable {n : Word} (v : Word)

theorem ofNat_toNat_index (n : Word) : BitVec.ofNat 256 n.toNat = n := by
  rw [BitVec.ofNat_toNat, BitVec.setWidth_eq]

theorem toNat_byte_of_lt (h : n.toNat < 32) :
    (byte n v).toNat = v.toNat / 256 ^ (31 - n.toNat) % 256 := by
  have hdigit := toNat_byte h v
  rwa [ofNat_toNat_index] at hdigit

theorem byte_of_le (h : 32 ≤ n.toNat) : byte n v = 0#256 := by
  rw [byte, if_neg (not_lt.mpr h)]

theorem exists_getElem?_toBytes (h : n.toNat < 32) :
    ∃ b, (v.toBytes 32)[n.toNat]? = some b ∧ (byte n v).toNat = b.toNat := by
  have hbyte := getElem?_toBytes v h
  rw [ofNat_toNat_index] at hbyte
  obtain ⟨b, hb, hword⟩ := Option.map_eq_some_iff.mp hbyte
  refine ⟨b, hb, ?_⟩
  have hlt : b.toNat < 2 ^ 256 :=
    b.toNat_lt.trans (Nat.pow_lt_pow_right (by omega) (by omega))
  rw [← hword, BitVec.toNat_ofNat, Nat.mod_eq_of_lt hlt]

/-! ## Shifting down -/

theorem toNat_shift_amount (h : n.toNat < 32) :
    (sub 248#256 (mul 8#256 n)).toNat = 8 * (31 - n.toNat) := by
  unfold sub mul
  bv_omega

theorem toNat_and_lowByte (w : Word) : (and w 255#256).toNat = w.toNat % 256 := by
  have hmask : (255#256).toNat = 2 ^ 8 - 1 := rfl
  rw [and, BitVec.toNat_and, hmask, Nat.and_two_pow_sub_one_eq_mod]

theorem byte_eq_and_shr (h : n.toNat < 32) :
    byte n v = and (shr (sub 248#256 (mul 8#256 n)) v) 255#256 := by
  have hamount := toNat_shift_amount h
  have hsmall : (sub 248#256 (mul 8#256 n)).toNat < 256 := by omega
  have hpower : 2 ^ (8 * (31 - n.toNat)) = 256 ^ (31 - n.toNat) := Nat.pow_mul 2 8 _
  apply BitVec.eq_of_toNat_eq
  rw [toNat_byte_of_lt v h, toNat_and_lowByte, shr, if_pos hsmall, BitVec.toNat_ushiftRight,
    Nat.shiftRight_eq_div_pow, hamount, hpower]

/-! ## Putting together -/

/-- The last `count` digits of a number write it up to the power that they reach. -/
theorem sum_digits (x count : ℕ) :
    ∑ k ∈ Finset.range count, x / 256 ^ k % 256 * 256 ^ k = x % 256 ^ count := by
  induction count with
  | zero => exact (Nat.mod_one x).symm
  | succ count ih => rw [Finset.sum_range_succ, ih, pow_succ, Nat.mod_mul, Nat.mul_comm]

theorem toNat_eq_sum_byte :
    v.toNat =
      ∑ i ∈ Finset.range 32, (byte (BitVec.ofNat 256 i) v).toNat * 256 ^ (31 - i) := by
  calc v.toNat
    _ = v.toNat % 256 ^ 32 := (Nat.mod_eq_of_lt v.isLt).symm
    _ = ∑ k ∈ Finset.range 32, v.toNat / 256 ^ k % 256 * 256 ^ k := (sum_digits _ _).symm
    _ = ∑ i ∈ Finset.range 32, v.toNat / 256 ^ (31 - i) % 256 * 256 ^ (31 - i) :=
        (Finset.sum_range_reflect _ 32).symm
    _ = ∑ i ∈ Finset.range 32, (byte (BitVec.ofNat 256 i) v).toNat * 256 ^ (31 - i) := by
        apply Finset.sum_congr rfl
        intro i hi
        rw [toNat_byte (Finset.mem_range.mp hi) v]
        rfl

end

/-- Byte `n` is element `n` of the written word and what a shift by `248 - 8 * n` leaves at
the low end.  A word has no byte beyond 31, and is the sum of those it has, each at its
place. -/
theorem byte_extractions_agree (v : Word) :
    (∀ n : Word,
        (n.toNat < 32 →
          (∃ b, (v.toBytes 32)[n.toNat]? = some b ∧ (byte n v).toNat = b.toNat) ∧
          byte n v = and (shr (sub 248#256 (mul 8#256 n)) v) 255#256) ∧
        (32 ≤ n.toNat → byte n v = 0#256)) ∧
      v.toNat =
        ∑ i ∈ Finset.range 32, (byte (BitVec.ofNat 256 i) v).toNat * 256 ^ (31 - i) := by
  refine ⟨fun n ↦ ⟨fun h ↦ ⟨?_, ?_⟩, ?_⟩, ?_⟩
  · exact exists_getElem?_toBytes v h
  · exact byte_eq_and_shr v h
  · exact byte_of_le v
  · exact toNat_eq_sum_byte v

/-- The last byte but one, and the byte whose number has the same low 64 bits. -/
theorem byte_extractions_agree_lastButOne :
    (∃ b, (toBytes 0x1234#256 32)[30]? = some b ∧ (byte 30#256 0x1234#256).toNat = b.toNat) ∧
      byte 30#256 0x1234#256 = and (shr (sub 248#256 (mul 8#256 30#256)) 0x1234#256) 255#256 ∧
      byte (1#256 <<< 64 + 30#256) 0x1234#256 = 0#256 := by
  obtain ⟨hbytes, -⟩ := byte_extractions_agree 0x1234#256
  obtain ⟨hwritten, hshifted⟩ := (hbytes 30#256).1 (by decide)
  exact ⟨hwritten, hshifted, (hbytes _).2 (by decide)⟩

end Word

end WordMachine
