import Mathlib.Data.BitVec
import Mathlib.Data.Nat.Digits.Defs
import WordMachine.Proofs.BigEndian

/-!
# Writing words as bytes and reading them back

A byte string of any length is the number it writes in base 256.  Reading looks only at
whether the bytes in front of the last 32 are zero, which is the case exactly when that
number is below `2 ^ 256`.  Writing a word gives as many of its last digits as asked for.
So what was written is read back up to the digits left out, and what was read is written
again byte for byte, leading zeros included.
-/

namespace WordMachine

namespace Word

/-! ## The number of a byte string -/

/-- The number whose digits in base 256 are the bytes, the last one lowest. -/
def bigEndianValue (bytes : List UInt8) : ℕ :=
  Nat.ofDigits 256 (bytes.reverse.map UInt8.toNat)

theorem accumulate_concat (start : ℕ) (front : List UInt8) (b : UInt8) :
    accumulate start (front ++ [b]) = accumulate start front * 256 + b.toNat := by
  rw [accumulate_append]
  rfl

theorem bigEndianValue_eq_accumulate (bytes : List UInt8) :
    bigEndianValue bytes = accumulate 0 bytes := by
  induction bytes using List.reverseRecOn with
  | nil => rfl
  | append_singleton front b ih =>
      rw [accumulate_concat, ← ih, bigEndianValue, List.reverse_concat, List.map_cons,
        Nat.ofDigits_cons, bigEndianValue]
      omega

/-- The digits of the number are the bytes again. -/
theorem lowBytes_accumulate (bytes : List UInt8) :
    lowBytes bytes.length (accumulate 0 bytes) [] = bytes := by
  induction bytes using List.reverseRecOn with
  | nil => rfl
  | append_singleton front b ih =>
      have hdigit : b.toNat < 256 := b.toNat_lt
      have hquotient : (accumulate 0 front * 256 + b.toNat) / 256 = accumulate 0 front := by omega
      have hremainder : (accumulate 0 front * 256 + b.toNat) % 256 = b.toNat := by omega
      rw [List.length_append, List.length_singleton, lowBytes_succ, accumulate_concat, hquotient,
        hremainder, ih, UInt8.ofNat_toNat]

theorem accumulate_eq_zero_iff (bytes : List UInt8) :
    accumulate 0 bytes = 0 ↔ bytes.all (· == 0) = true := by
  induction bytes using List.reverseRecOn with
  | nil => exact ⟨fun _ ↦ rfl, fun _ ↦ rfl⟩
  | append_singleton front b ih =>
      have hdigit : b.toNat = 0 ↔ b = 0 := UInt8.toNat_inj (b := 0)
      rw [accumulate_concat, List.all_append, Bool.and_eq_true, ← ih]
      simp only [List.all_cons, List.all_nil, Bool.and_true, beq_iff_eq, ← hdigit]
      omega

/-! ## Reading -/

theorem accumulate_last_lt (bytes : List UInt8) :
    accumulate 0 (bytes.drop (bytes.length - 32)) < 2 ^ 256 := by
  have hlength : (bytes.drop (bytes.length - 32)).length ≤ 32 := by
    rw [List.length_drop]
    omega
  exact (accumulate_lt _).trans_le (Nat.pow_le_pow_right (by decide) hlength : _ ≤ 256 ^ 32)

/-- Where there are bytes in front of the last 32, they count in units of `2 ^ 256`. -/
theorem accumulate_split (bytes : List UInt8) :
    accumulate 0 bytes =
      accumulate 0 (bytes.take (bytes.length - 32)) * 2 ^ 256 +
        accumulate 0 (bytes.drop (bytes.length - 32)) := by
  by_cases hlong : 32 ≤ bytes.length
  · have hlength : (bytes.drop (bytes.length - 32)).length = 32 := by
      rw [List.length_drop]
      omega
    have hpower : Nat.pow 256 32 = 2 ^ 256 := by decide
    nth_rewrite 1 [← List.take_append_drop (bytes.length - 32) bytes]
    rw [accumulate_append, accumulate_eq, hlength, hpower]
  · have hexcess : bytes.length - 32 = 0 := by omega
    have hnothing : accumulate 0 [] = 0 := rfl
    rw [hexcess, List.take_zero, List.drop_zero, hnothing, Nat.zero_mul, Nat.zero_add]

section

variable {bytes : List UInt8}

theorem excess_zero_iff :
    (bytes.take (bytes.length - 32)).all (· == 0) = true ↔ accumulate 0 bytes < 2 ^ 256 := by
  have hsplit := accumulate_split bytes
  have hlast := accumulate_last_lt bytes
  rw [← accumulate_eq_zero_iff]
  omega

theorem ofBytes_of_lt (h : accumulate 0 bytes < 2 ^ 256) :
    ofBytes bytes = .ok (BitVec.ofNat 256 (accumulate 0 bytes)) := by
  have hexcess := excess_zero_iff.mpr h
  have hlast : accumulate 0 bytes = accumulate 0 (bytes.drop (bytes.length - 32)) := by
    rw [accumulate_split, (accumulate_eq_zero_iff _).mpr hexcess, Nat.zero_mul, Nat.zero_add]
  rw [ofBytes, if_pos hexcess, ← hlast]

theorem ofBytes_of_le (h : 2 ^ 256 ≤ accumulate 0 bytes) :
    ofBytes bytes = .error .stackValueTooBig := by
  rw [ofBytes, if_neg (mt excess_zero_iff.mp (not_lt.mpr h))]

theorem ofBytes_eq_error {fault : Fault} (h : ofBytes bytes = .error fault) :
    2 ^ 256 ≤ accumulate 0 bytes ∧ fault = .stackValueTooBig := by
  by_cases hlt : accumulate 0 bytes < 2 ^ 256
  · rw [ofBytes_of_lt hlt] at h
    cases h
  · rw [ofBytes_of_le (not_lt.mp hlt)] at h
    cases h
    exact ⟨not_lt.mp hlt, rfl⟩

theorem ofBytes_eq_error_iff :
    ofBytes bytes = .error .stackValueTooBig ↔ 2 ^ 256 ≤ accumulate 0 bytes :=
  ⟨fun h ↦ (ofBytes_eq_error h).1, ofBytes_of_le⟩

theorem toNat_of_ofBytes {w : Word} (h : ofBytes bytes = .ok w) : w.toNat = accumulate 0 bytes := by
  by_cases hlt : accumulate 0 bytes < 2 ^ 256
  · rw [ofBytes_of_lt hlt] at h
    cases h
    rw [BitVec.toNat_ofNat, Nat.mod_eq_of_lt hlt]
  · rw [ofBytes_of_le (not_lt.mp hlt)] at h
    cases h

end

/-! ## Both ways -/

theorem toBytes_of_ofBytes {bytes : List UInt8} {w : Word} (h : ofBytes bytes = .ok w) :
    w.toBytes bytes.length = bytes := by
  rw [toBytes, toNat_of_ofBytes h, lowBytes_accumulate]

section

variable (v : Word) (length : ℕ)

theorem accumulate_toBytes : accumulate 0 (v.toBytes length) = v.toNat % 2 ^ (8 * length) := by
  have hpower : Nat.pow 256 length = 2 ^ (8 * length) := (Nat.pow_mul 2 8 length).symm
  rw [toBytes, accumulate_lowBytes, hpower]

theorem ofBytes_toBytes :
    ofBytes (v.toBytes length) = .ok (BitVec.ofNat 256 (v.toNat % 2 ^ (8 * length))) := by
  have hlt : accumulate 0 (v.toBytes length) < 2 ^ 256 := by
    rw [accumulate_toBytes]
    exact (Nat.mod_le _ _).trans_lt v.isLt
  rw [ofBytes_of_lt hlt, accumulate_toBytes]

variable {length}

theorem ofBytes_toBytes_of_le (h : 32 ≤ length) : ofBytes (v.toBytes length) = .ok v := by
  have hlt : v.toNat < 2 ^ (8 * length) :=
    v.isLt.trans_le (Nat.pow_le_pow_right (by decide) (by omega))
  rw [ofBytes_toBytes, Nat.mod_eq_of_lt hlt, BitVec.ofNat_toNat, BitVec.setWidth_eq]

end

/-- What is written has the length asked for and reads back as the word modulo the power
of two that its bits reach.  A string is too big to read exactly when its number is, and
any other is written again from the word it is read as. -/
theorem bytes_round_trip :
    (∀ (v : Word) (length : ℕ),
        (v.toBytes length).length = length ∧
        (∃ w, ofBytes (v.toBytes length) = .ok w ∧ w.toNat = v.toNat % 2 ^ (8 * length)) ∧
        (32 ≤ length → ofBytes (v.toBytes length) = .ok v)) ∧
      ∀ bytes : List UInt8,
        (ofBytes bytes = .error .stackValueTooBig ↔ 2 ^ 256 ≤ bigEndianValue bytes) ∧
        (∀ fault, ofBytes bytes = .error fault → fault = .stackValueTooBig) ∧
        ∀ w, ofBytes bytes = .ok w →
          w.toNat = bigEndianValue bytes ∧ w.toBytes bytes.length = bytes := by
  constructor
  · intro v length
    have hread := ofBytes_toBytes v length
    have hvalue := toNat_of_ofBytes hread
    rw [accumulate_toBytes] at hvalue
    exact ⟨length_toBytes v length, ⟨_, hread, hvalue⟩, ofBytes_toBytes_of_le v⟩
  · intro bytes
    rw [bigEndianValue_eq_accumulate]
    exact ⟨ofBytes_eq_error_iff, fun fault h ↦ (ofBytes_eq_error h).2,
      fun w h ↦ ⟨toNat_of_ofBytes h, toBytes_of_ofBytes h⟩⟩

/-- Two bytes behind as many zeros as a word has bytes: one byte alone loses the high one,
and all 34 come back. -/
theorem bytes_round_trip_padded :
    (∃ w, ofBytes (toBytes 0x1234#256 1) = .ok w ∧ w.toNat = 0x34) ∧
      ofBytes (toBytes 0x1234#256 34) = .ok 0x1234#256 ∧
      toBytes 0x1234#256 34 = List.replicate 32 0 ++ [0x12, 0x34] ∧
      ofBytes (1 :: List.replicate 32 0) = .error .stackValueTooBig := by
  have hpadded : ofBytes (List.replicate 32 0 ++ [0x12, 0x34]) = .ok 0x1234#256 := rfl
  obtain ⟨hwritten, hread⟩ := bytes_round_trip
  exact ⟨(hwritten 0x1234#256 1).2.1, (hwritten 0x1234#256 34).2.2 (by decide),
    ((hread _).2.2 _ hpadded).2, (hread _).1.mpr (by decide)⟩

end Word

end WordMachine
