import WordMachine.Word.BigEndian

/-!
# Big-endian digits

The bytes of a number are its base-256 digits, the last one lowest.  Fewer digits
are the end of more digits, and reading them again gives the number up to the
power of 256 that they do not reach.
-/

namespace WordMachine

namespace Word

@[simp] theorem length_lowBytes (count n : Nat) (tail : List UInt8) :
    (lowBytes count n tail).length = count + tail.length := by
  induction count generalizing n tail with
  | zero => rw [lowBytes, Nat.zero_add]
  | succ count ih =>
      rw [lowBytes, ih, List.length_cons]
      omega

@[simp] theorem length_toBytes (w : Word) (length : Nat) : (w.toBytes length).length = length :=
  length_lowBytes _ _ _

theorem lowBytes_eq_append (count n : Nat) (tail : List UInt8) :
    lowBytes count n tail = lowBytes count n [] ++ tail := by
  induction count generalizing n tail with
  | zero => rfl
  | succ count ih =>
      rw [lowBytes, lowBytes, ih, ih _ [_], List.append_assoc]
      rfl

theorem lowBytes_succ (count n : Nat) :
    lowBytes (count + 1) n [] = lowBytes count (n / 256) [] ++ [UInt8.ofNat (n % 256)] := by
  rw [lowBytes, lowBytes_eq_append]

/-- The digits in front are those of the quotient. -/
theorem lowBytes_add (front count n : Nat) :
    lowBytes (front + count) n [] =
      lowBytes front (n / Nat.pow 256 count) [] ++ lowBytes count n [] := by
  induction count generalizing n with
  | zero => simp [lowBytes]
  | succ count ih =>
      have hpower : Nat.pow 256 (count + 1) = 256 * Nat.pow 256 count := Nat.mul_comm _ _
      have hquotient : n / 256 / Nat.pow 256 count = n / Nat.pow 256 (count + 1) := by
        rw [Nat.div_div_eq_div_mul, hpower]
      rw [← Nat.add_assoc, lowBytes_succ, ih, lowBytes_succ, hquotient, List.append_assoc]

theorem lowBytes_zero (count : Nat) : lowBytes count 0 [] = List.replicate count 0 := by
  induction count with
  | zero => rfl
  | succ count ih =>
      rw [lowBytes_succ, Nat.zero_div, ih, List.replicate_succ']
      rfl

theorem accumulate_append (start : Nat) (front bytes : List UInt8) :
    accumulate start (front ++ bytes) = accumulate (accumulate start front) bytes :=
  List.foldl_append

theorem accumulate_eq (start : Nat) (bytes : List UInt8) :
    accumulate start bytes = start * Nat.pow 256 bytes.length + accumulate 0 bytes := by
  induction bytes generalizing start with
  | nil => exact (Nat.mul_one start).symm
  | cons b rest ih =>
      have hpower : Nat.pow 256 (rest.length + 1) = 256 * Nat.pow 256 rest.length :=
        Nat.mul_comm _ _
      calc accumulate (start * 256 + b.toNat) rest
        _ = (start * 256 + b.toNat) * Nat.pow 256 rest.length + accumulate 0 rest := ih _
        _ = start * Nat.pow 256 (rest.length + 1) +
              ((0 * 256 + b.toNat) * Nat.pow 256 rest.length + accumulate 0 rest) := by
            rw [hpower, Nat.add_mul, Nat.mul_assoc, Nat.zero_mul, Nat.zero_add, Nat.add_assoc]
        _ = start * Nat.pow 256 (rest.length + 1) + accumulate (0 * 256 + b.toNat) rest := by
            rw [← ih]

theorem accumulate_lt (bytes : List UInt8) : accumulate 0 bytes < Nat.pow 256 bytes.length := by
  induction bytes with
  | nil => exact Nat.zero_lt_one
  | cons b rest ih =>
      have hpower : Nat.pow 256 (rest.length + 1) = 256 * Nat.pow 256 rest.length :=
        Nat.mul_comm _ _
      have hdigit : (b.toNat + 1) * Nat.pow 256 rest.length ≤ 256 * Nat.pow 256 rest.length :=
        Nat.mul_le_mul_right _ b.toNat_lt
      rw [show accumulate 0 (b :: rest) = accumulate (0 * 256 + b.toNat) rest from rfl,
        accumulate_eq, Nat.zero_mul, Nat.zero_add, List.length_cons, hpower]
      rw [Nat.add_mul, Nat.one_mul] at hdigit
      omega

/-- A digit is what is left of the quotient by the power that the digits behind it
make up. -/
theorem accumulate_div_mod (front back : List UInt8) (b : UInt8) :
    accumulate 0 (front ++ b :: back) / Nat.pow 256 back.length % 256 = b.toNat := by
  have hpositive : 0 < Nat.pow 256 back.length := Nat.pow_pos (by decide)
  have hsplit : accumulate 0 (front ++ b :: back) =
      (accumulate 0 front * 256 + b.toNat) * Nat.pow 256 back.length + accumulate 0 back := by
    rw [accumulate_append]
    exact accumulate_eq _ back
  rw [hsplit, Nat.mul_comm, Nat.mul_add_div hpositive, Nat.div_eq_of_lt (accumulate_lt back),
    Nat.add_zero]
  have hdigit : b.toNat < 256 := b.toNat_lt
  omega

theorem accumulate_lowBytes (count n : Nat) :
    accumulate 0 (lowBytes count n []) = n % Nat.pow 256 count := by
  induction count generalizing n with
  | zero => exact (Nat.mod_one n).symm
  | succ count ih =>
      have hpower : Nat.pow 256 (count + 1) = 256 * Nat.pow 256 count := Nat.mul_comm _ _
      have hdigit : (UInt8.ofNat (n % 256)).toNat = n % 256 :=
        UInt8.toNat_ofNat_of_lt' (Nat.mod_lt _ (by decide))
      rw [lowBytes_succ, accumulate_append, ih, hpower, Nat.mod_mul]
      simp only [accumulate, List.foldl_cons, List.foldl_nil, hdigit]
      omega

end Word

end WordMachine
