import Mathlib.Data.Nat.Digits.Defs

/-!
# Rows of digits

A row of digits writes a number, the first digit being the highest.  Zeros in front do
not count, and the shortest row for a number has none unless the number is zero.
-/

namespace WordMachine

namespace Numeral

/-- All digits, each at the place that is its value. -/
def alphabet : List Char :=
  ['0', '1', '2', '3', '4', '5', '6', '7', '8', '9', 'a', 'b', 'c', 'd', 'e', 'f']

def digits (base : ℕ) : List Char := alphabet.take base

/-- A row, possibly empty, of digits of the base. -/
def IsNumeral (base : ℕ) (cs : List Char) : Prop := ∀ c ∈ cs, c ∈ digits base

instance (base : ℕ) (cs : List Char) : Decidable (IsNumeral base cs) :=
  List.decidableBAll (· ∈ digits base) cs

/-- The number that a row of digits writes; an empty row writes zero. -/
def value (base : ℕ) (cs : List Char) : ℕ :=
  Nat.ofDigits base (cs.reverse.map fun c ↦ alphabet.idxOf c)

section

variable {base : ℕ}

/-! ## Single digits -/

theorem mem_digits_iff (hbase : base ≤ 16) {c : Char} :
    c ∈ digits base ↔ ∃ d < base, Nat.digitChar d = c := by
  have halphabet : alphabet = (List.range 16).map Nat.digitChar := rfl
  rw [digits, halphabet, ← List.map_take, List.take_range, Nat.min_eq_left hbase, List.mem_map]
  simp only [List.mem_range]

theorem idxOf_digitChar {d : ℕ} (h : d < 16) : alphabet.idxOf (Nat.digitChar d) = d := by
  have hall : ∀ d < 16, alphabet.idxOf (Nat.digitChar d) = d := by decide
  exact hall d h

theorem digitChar_mem_digits (hbase : base ≤ 16) {d : ℕ} (h : d < base) :
    Nat.digitChar d ∈ digits base :=
  (mem_digits_iff hbase).mpr ⟨d, h, rfl⟩

/-! ## Values -/

@[simp] theorem value_nil : value base [] = 0 := rfl

@[simp] theorem value_singleton (c : Char) : value base [c] = alphabet.idxOf c :=
  Nat.ofDigits_singleton

theorem value_append (front back : List Char) :
    value base (front ++ back) = value base front * base ^ back.length + value base back := by
  rw [value, List.reverse_append, List.map_append, Nat.ofDigits_append, List.length_map,
    List.length_reverse, Nat.add_comm, Nat.mul_comm]
  rfl

theorem value_le_append (hbase : 0 < base) (front back : List Char) :
    value base front ≤ value base (front ++ back) := by
  rw [value_append]
  exact Nat.le_add_right_of_le (Nat.le_mul_of_pos_right _ (Nat.pow_pos hbase))

theorem value_zero_cons (cs : List Char) : value base ('0' :: cs) = value base cs := by
  have hzero : value base ['0'] = 0 := value_singleton '0'
  rw [← List.singleton_append, value_append, hzero, Nat.zero_mul, Nat.zero_add]

/-! ## The shortest row -/

section

variable (hone : 1 < base) (hbase : base ≤ 16) (n : ℕ)
include hone

/-- The first digit of a longer row is that of the quotient. -/
theorem head?_toDigits_of_le (h : base ≤ n) :
    (Nat.toDigits base n).head? = (Nat.toDigits base (n / base)).head? := by
  obtain ⟨d, ds, hds⟩ := List.exists_cons_of_ne_nil (Nat.toDigits_ne_nil (n := n / base))
  rw [Nat.toDigits_of_base_le hone h, hds]
  rfl

variable {n} in
theorem eq_zero_of_head?_toDigits (h : (Nat.toDigits base n).head? = some '0') : n = 0 := by
  induction n using Nat.strongRecOn with
  | ind n ih =>
      by_cases hlt : n < base
      · rw [Nat.toDigits_of_lt_base hlt] at h
        exact Nat.digitChar_eq_zero.mp (Option.some.inj h)
      · have hle : base ≤ n := Nat.le_of_not_lt hlt
        have hpositive : 0 < n / base := Nat.div_pos hle (by omega)
        rw [head?_toDigits_of_le hone n hle] at h
        have hquotient := ih (n / base) (Nat.div_lt_self (by omega) hone) h
        omega

include hbase

theorem isNumeral_toDigits : IsNumeral base (Nat.toDigits base n) := by
  induction n using Nat.strongRecOn with
  | ind n ih =>
      by_cases hlt : n < base
      · rw [Nat.toDigits_of_lt_base hlt]
        intro c hc
        rw [List.mem_singleton.mp hc]
        exact digitChar_mem_digits hbase hlt
      · have hle : base ≤ n := Nat.le_of_not_lt hlt
        rw [Nat.toDigits_of_base_le hone hle]
        intro c hc
        rcases List.mem_append.mp hc with hc | hc
        · exact ih (n / base) (Nat.div_lt_self (by omega) hone) c hc
        · rw [List.mem_singleton.mp hc]
          exact digitChar_mem_digits hbase (Nat.mod_lt n (by omega))

theorem value_toDigits : value base (Nat.toDigits base n) = n := by
  induction n using Nat.strongRecOn with
  | ind n ih =>
      by_cases hlt : n < base
      · rw [Nat.toDigits_of_lt_base hlt, value_singleton, idxOf_digitChar (by omega)]
      · have hle : base ≤ n := Nat.le_of_not_lt hlt
        have hlast : n % base < base := Nat.mod_lt n (by omega)
        rw [Nat.toDigits_of_base_le hone hle, value_append, value_singleton,
          idxOf_digitChar (by omega), ih (n / base) (Nat.div_lt_self (by omega) hone),
          List.length_singleton, pow_one, Nat.mul_comm, Nat.div_add_mod]

end

end

end Numeral

end WordMachine
