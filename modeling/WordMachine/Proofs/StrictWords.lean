import WordMachine.Operation.Basic
import WordMachine.Proofs.BigEndian

/-!
# Strict operators on words

On a real machine most operators have operands for which there is no answer: a
sum beyond the largest position, a difference below zero, a quotient by zero, a
shift by the width or more, a place outside a string.  The strict operators give
nothing there.  The operations on words are carried out with them here, and come
to what they come to with total operators: each of them sees to it beforehand
that the operands are in range.
-/

namespace WordMachine

namespace Strict

/-! ## Positions and strings -/

/-- The sum, if it is a position. -/
def plus (a b : Nat) : Option Nat := if a + b < Word.sizeBound then some (a + b) else none

def minus (a b : Nat) : Option Nat := if b ≤ a then some (a - b) else none

def times (a b : Nat) : Option Nat := if a * b < Word.sizeBound then some (a * b) else none

/-- The part of a string from `start` on, in front of `stop`. -/
def slice {α : Type} (xs : List α) (start stop : Nat) : Option (List α) :=
  if start ≤ stop ∧ stop ≤ xs.length then some ((xs.drop start).take (stop - start)) else none

theorem plus_of_lt {a b : Nat} (h : a + b < Word.sizeBound) : plus a b = some (a + b) := if_pos h

theorem minus_of_le {a b : Nat} (h : b ≤ a) : minus a b = some (a - b) := if_pos h

theorem times_of_lt {a b : Nat} (h : a * b < Word.sizeBound) : times a b = some (a * b) := if_pos h

theorem slice_of_le {α : Type} {xs : List α} {start stop : Nat} (hstart : start ≤ stop)
    (hstop : stop ≤ xs.length) : slice xs start stop = some ((xs.drop start).take (stop - start)) :=
  if_pos ⟨hstart, hstop⟩

theorem slice_to_end {α : Type} {xs : List α} {start stop : Nat} (hstart : start ≤ stop)
    (hstop : xs.length = stop) : slice xs start stop = some (xs.drop start) := by
  rw [slice_of_le hstart (Nat.le_of_eq hstop.symm), ← hstop, ← List.length_drop, List.take_length]

/-! ## Words of any width -/

section

variable {n : Nat}

def sum (a b : BitVec n) : Option (BitVec n) :=
  if a.toNat + b.toNat < Nat.pow 2 n then some (a + b) else none

def difference (a b : BitVec n) : Option (BitVec n) :=
  if b.toNat ≤ a.toNat then some (a - b) else none

def product (a b : BitVec n) : Option (BitVec n) :=
  if a.toNat * b.toNat < Nat.pow 2 n then some (a * b) else none

def quotient (a b : BitVec n) : Option (BitVec n) := if b = 0#n then none else some (a / b)

def remainder (a b : BitVec n) : Option (BitVec n) := if b = 0#n then none else some (a % b)

def shiftLeft (a : BitVec n) (shift : Nat) : Option (BitVec n) :=
  if shift < n then some (a <<< shift) else none

def shiftRight (a : BitVec n) (shift : Nat) : Option (BitVec n) :=
  if shift < n then some (a >>> shift) else none

def bit (a : BitVec n) (place : Nat) : Option Bool :=
  if place < n then some (a.getLsbD place) else none

/-- A byte, the least significant one being byte 0. -/
def lowByte (a : BitVec n) (place : Nat) : Option (BitVec 8) :=
  if 8 * place < n then some (a.extractLsb' (8 * place) 8) else none

theorem bit_of_lt (a : BitVec n) {place : Nat} (h : place < n) :
    bit a place = some (a.getLsbD place) :=
  if_pos h

variable {m : Nat}

/-- Twice the width has room for the sum of any two words. -/
theorem sum_setWidth (a b : BitVec n) (h : n < m) :
    sum (a.setWidth m) (b.setWidth m) = some (a.setWidth m + b.setWidth m) := by
  refine if_pos ?_
  have hn : n ≤ m := Nat.le_of_lt h
  calc (a.setWidth m).toNat + (b.setWidth m).toNat
    _ = a.toNat + b.toNat := by
        rw [BitVec.toNat_setWidth_of_le hn, BitVec.toNat_setWidth_of_le hn]
    _ < 2 ^ n + 2 ^ n := Nat.add_lt_add a.isLt b.isLt
    _ = 2 ^ (n + 1) := by rw [Nat.pow_succ, Nat.mul_two]
    _ ≤ 2 ^ m := Nat.pow_le_pow_right (by decide) h

theorem product_setWidth (a b : BitVec n) (h : n + n ≤ m) :
    product (a.setWidth m) (b.setWidth m) = some (a.setWidth m * b.setWidth m) := by
  refine if_pos ?_
  have hn : n ≤ m := Nat.le_trans (Nat.le_add_right n n) h
  calc (a.setWidth m).toNat * (b.setWidth m).toNat
    _ = a.toNat * b.toNat := by
        rw [BitVec.toNat_setWidth_of_le hn, BitVec.toNat_setWidth_of_le hn]
    _ < 2 ^ n * 2 ^ n := Nat.mul_lt_mul'' a.isLt b.isLt
    _ = 2 ^ (n + n) := (Nat.pow_add 2 n n).symm
    _ ≤ 2 ^ m := Nat.pow_le_pow_right (by decide) h

theorem remainder_setWidth (a : BitVec m) {b : BitVec n} (h : n ≤ m) (hb : b ≠ 0#n) :
    remainder a (b.setWidth m) = some (a % b.setWidth m) := by
  refine if_neg fun hzero ↦ hb (BitVec.eq_of_toNat_eq ?_)
  rw [← BitVec.toNat_setWidth_of_le h, hzero, BitVec.toNat_zero, BitVec.toNat_zero]

end

/-- The number in as many bytes as a word has, or fewer. -/
def ofBigEndian (bytes : List UInt8) : Option Word :=
  if bytes.length ≤ 32 then some (BitVec.ofNat 256 (Word.accumulate 0 bytes)) else none

theorem ofBigEndian_of_le {bytes : List UInt8} (h : bytes.length ≤ 32) :
    ofBigEndian bytes = some (BitVec.ofNat 256 (Word.accumulate 0 bytes)) :=
  if_pos h

/-! ## Operations -/

def div (a b : Word) : Option Word := if b = 0#256 then some 0#256 else quotient a b

def mod (a b : Word) : Option Word := if b = 0#256 then some 0#256 else remainder a b

def toSigned (w : Word) : Option SignedMagnitude := do
  if ← bit w 255 then return ⟨true, w.negate⟩ else return ⟨false, w⟩

def sdiv (a b : Word) : Option Word :=
  if b = 0#256 then some 0#256
  else do
    let x ← toSigned a
    let y ← toSigned b
    return Word.ofSigned ⟨x.negative != y.negative, ← quotient x.magnitude y.magnitude⟩

def smod (a b : Word) : Option Word :=
  if b = 0#256 then some 0#256
  else do
    let x ← toSigned a
    let y ← toSigned b
    return Word.ofSigned ⟨x.negative, ← remainder x.magnitude y.magnitude⟩

/-- The low half, through the bytes of the whole. -/
def narrow (v : BitVec 512) : Option Word := do
  ofBigEndian (← slice (Word.lowBytes 64 v.toNat []) 32 64)

def addMod (a b n : Word) : Option Word :=
  if n = 0#256 then some 0#256
  else do
    let total ← sum (a.setWidth 512) (b.setWidth 512)
    narrow (← remainder total (n.setWidth 512))

def mulMod (a b n : Word) : Option Word :=
  if n = 0#256 then some 0#256
  else do
    let total ← product (a.setWidth 512) (b.setWidth 512)
    narrow (← remainder total (n.setWidth 512))

def squareAndMultiply : Nat → Word → Word → Word → Option Word
  | 0, _, _, acc => some acc
  | rounds + 1, b, e, acc =>
    if e = 0#256 then some acc
    else do
      let odd ← bit e 0
      let half ← shiftRight e 1
      squareAndMultiply rounds (b * b) half (if odd then acc * b else acc)

def exp (base exponent : Word) : Option Word := squareAndMultiply 256 base exponent 1#256

def signedLess (a b : Word) : Option Bool := do
  match ← bit a 255, ← bit b 255 with
  | true, false => return true
  | false, true => return false
  | _, _ => return a.toNat < b.toNat

def signExtend (b x : Word) : Option Word :=
  if b.toNat < 31 then do
    let signBit ← plus (← times b.toNat 8) 7
    let above ← shiftLeft 1#256 (← plus signBit 1)
    let mask ← difference above 1#256
    if ← bit x signBit then return x ||| ~~~mask else return x &&& mask
  else some x

def byte (n value : Word) : Option Word :=
  if n.toNat < 32 then do
    let place ← minus 31 n.toNat
    return (← lowByte value place).setWidth 256
  else some 0#256

def shl (shift value : Word) : Option Word :=
  if shift.toNat < 256 then shiftLeft value shift.toNat else some 0#256

def shr (shift value : Word) : Option Word :=
  if shift.toNat < 256 then shiftRight value shift.toNat else some 0#256

def sar (shift value : Word) : Option Word := do
  let negative ← bit value 255
  if shift.toNat < 256 then
    let shifted ← shiftRight value shift.toNat
    if negative && 0 < shift.toNat then
      let fill ← shiftLeft Word.maximum (← minus 256 shift.toNat)
      return shifted ||| fill
    else return shifted
  else return if negative then Word.maximum else 0#256

/-- Operations that are not named here wrap, compare or work bit by bit, which no
operand is too big for. -/
def binary : BinaryOperation → Word → Word → Option Word
  | .div, a, b => div a b
  | .sdiv, a, b => sdiv a b
  | .mod, a, b => mod a b
  | .smod, a, b => smod a b
  | .exp, a, b => exp a b
  | .signExtend, a, b => signExtend a b
  | .slt, a, b => return Word.ofBool (← signedLess a b)
  | .sgt, a, b => return Word.ofBool (← signedLess b a)
  | .byte, a, b => byte a b
  | .shl, a, b => shl a b
  | .shr, a, b => shr a b
  | .sar, a, b => sar a b
  | op, a, b => some (op.apply a b)

def ternary : TernaryOperation → Word → Word → Word → Option Word
  | .addMod => addMod
  | .mulMod => mulMod

/-! ## They never come to nothing -/

theorem div_eq (a b : Word) : div a b = some (a.div b) := by
  by_cases hzero : b = 0#256 <;> simp [div, Word.div, quotient, hzero]

theorem mod_eq (a b : Word) : mod a b = some (a.mod b) := by
  by_cases hzero : b = 0#256 <;> simp [mod, Word.mod, remainder, hzero]

theorem bit_sign (w : Word) : bit w 255 = some w.isNegative := rfl

theorem toSigned_eq (w : Word) : toSigned w = some w.toSigned := by
  cases hsign : w.isNegative <;> simp [toSigned, bit_sign, Word.toSigned, hsign]

/-- Only zero is at no distance from zero. -/
theorem magnitude_ne_zero {w : Word} (h : w ≠ 0#256) : w.toSigned.magnitude ≠ 0#256 := by
  unfold Word.toSigned
  split
  · have hnegate : w.negate = -w := (BitVec.neg_eq_not_add w).symm
    simpa [hnegate] using h
  · exact h

theorem sdiv_eq (a b : Word) : sdiv a b = some (a.sdiv b) := by
  by_cases hzero : b = 0#256
  · simp [sdiv, Word.sdiv, hzero]
  · simp [sdiv, Word.sdiv, hzero, toSigned_eq, quotient, magnitude_ne_zero hzero]

theorem smod_eq (a b : Word) : smod a b = some (a.smod b) := by
  by_cases hzero : b = 0#256
  · simp [smod, Word.smod, hzero]
  · simp [smod, Word.smod, hzero, toSigned_eq, remainder, magnitude_ne_zero hzero]

theorem narrow_eq (v : BitVec 512) : narrow v = some (v.setWidth 256) := by
  have hlow : (Word.lowBytes 64 v.toNat []).drop 32 = Word.lowBytes 32 v.toNat [] := by
    rw [show 64 = 32 + 32 from rfl, Word.lowBytes_add]
    exact List.drop_left' (Word.length_lowBytes _ _ _)
  have hlength : (Word.lowBytes 32 v.toNat []).length = 32 := Word.length_lowBytes _ _ _
  have hslice : slice (Word.lowBytes 64 v.toNat []) 32 64 = some (Word.lowBytes 32 v.toNat []) := by
    rw [← hlow]
    exact slice_to_end (by decide) (Word.length_lowBytes 64 _ [])
  have hvalue : BitVec.ofNat 256 (Word.accumulate 0 (Word.lowBytes 32 v.toNat [])) =
      v.setWidth 256 := by
    apply BitVec.eq_of_toNat_eq
    have hpower : Nat.pow 256 32 = 2 ^ 256 := by decide
    rw [Word.accumulate_lowBytes, hpower, BitVec.toNat_ofNat, BitVec.toNat_setWidth, Nat.mod_mod]
  rw [narrow, hslice, Option.bind_eq_bind, Option.bind_some,
    ofBigEndian_of_le (Nat.le_of_eq hlength), hvalue]

theorem addMod_eq (a b n : Word) : addMod a b n = some (a.addMod b n) := by
  by_cases hzero : n = 0#256
  · simp [addMod, Word.addMod, hzero]
  · have hsum := sum_setWidth a b (m := 512) (by decide)
    have hremainder := remainder_setWidth (a.setWidth 512 + b.setWidth 512) (by decide) hzero
    simp only [addMod, Word.addMod, hzero, if_false, hsum, hremainder, Option.bind_eq_bind,
      Option.bind_some, narrow_eq]

theorem mulMod_eq (a b n : Word) : mulMod a b n = some (a.mulMod b n) := by
  by_cases hzero : n = 0#256
  · simp [mulMod, Word.mulMod, hzero]
  · have hproduct := product_setWidth a b (m := 512) (by decide)
    have hremainder := remainder_setWidth (a.setWidth 512 * b.setWidth 512) (by decide) hzero
    simp only [mulMod, Word.mulMod, hzero, if_false, hproduct, hremainder, Option.bind_eq_bind,
      Option.bind_some, narrow_eq]

theorem squareAndMultiply_eq (rounds : Nat) (b e acc : Word) :
    squareAndMultiply rounds b e acc = some (Word.squareAndMultiply rounds b e acc) := by
  induction rounds generalizing b e acc with
  | zero => rfl
  | succ rounds ih =>
      by_cases hzero : e = 0#256
      · simp [squareAndMultiply, Word.squareAndMultiply, hzero]
      · simp [squareAndMultiply, Word.squareAndMultiply, hzero, bit, shiftRight, ih]

theorem signedLess_eq (a b : Word) : signedLess a b = some (Word.signedLess a b) := by
  cases ha : a.isNegative <;> cases hb : b.isNegative <;>
    simp [signedLess, Word.signedLess, bit_sign, ha, hb]

/-- Below bit 256 a power of two is at least one, so that one can be taken off. -/
theorem difference_one {shift : Nat} (h : shift < 256) :
    difference (1#256 <<< shift) 1#256 = some (1#256 <<< shift - 1#256) := by
  have hpower : (1#256 <<< shift).toNat = 2 ^ shift := by
    have hlt : 2 ^ shift < 2 ^ 256 := Nat.pow_lt_pow_right (by decide) h
    rw [BitVec.toNat_shiftLeft, Nat.shiftLeft_eq, BitVec.toNat_ofNat, Nat.one_mod_two_pow,
      Nat.one_mul, Nat.mod_eq_of_lt hlt]
    decide
  refine if_pos ?_
  rw [hpower]
  exact Nat.one_le_two_pow

theorem signExtend_eq (b x : Word) : signExtend b x = some (b.signExtend x) := by
  by_cases hsmall : b.toNat < 31
  · have hbound : (256 : Nat) ≤ Word.sizeBound := by decide
    have htimes : times b.toNat 8 = some (b.toNat * 8) := times_of_lt (by omega)
    have hsign : plus (b.toNat * 8) 7 = some (b.toNat * 8 + 7) := plus_of_lt (by omega)
    have habove : plus (b.toNat * 8 + 7) 1 = some (b.toNat * 8 + 7 + 1) := plus_of_lt (by omega)
    have hshift : b.toNat * 8 + 7 + 1 < 256 := by omega
    have hplace : b.toNat * 8 + 7 < 256 := by omega
    simp only [signExtend, Word.signExtend, hsmall, if_true, htimes, hsign, habove, shiftLeft,
      hshift, difference_one hshift, bit_of_lt x hplace, Option.bind_eq_bind, Option.bind_some]
    split <;> rfl
  · simp [signExtend, Word.signExtend, hsmall]

theorem byte_eq (n value : Word) : byte n value = some (n.byte value) := by
  by_cases hsmall : n.toNat < 32
  · have hminus : minus 31 n.toNat = some (31 - n.toNat) := minus_of_le (by omega)
    have hplace : 8 * (31 - n.toNat) < 256 := by omega
    simp [byte, Word.byte, hsmall, hminus, lowByte, hplace]
  · simp [byte, Word.byte, hsmall]

theorem shl_eq (shift value : Word) : shl shift value = some (shift.shl value) := by
  by_cases hsmall : shift.toNat < 256 <;> simp [shl, Word.shl, shiftLeft, hsmall]

theorem shr_eq (shift value : Word) : shr shift value = some (shift.shr value) := by
  by_cases hsmall : shift.toNat < 256 <;> simp [shr, Word.shr, shiftRight, hsmall]

/-- A shift by zero has nothing to fill, and any other leaves fewer than 256
places to. -/
theorem sar_eq (shift value : Word) : sar shift value = some (shift.sar value) := by
  by_cases hsmall : shift.toNat < 256
  · by_cases hfill : (value.isNegative && 0 < shift.toNat) = true
    · have hpositive : 0 < shift.toNat := by simpa using (Bool.and_eq_true_iff.mp hfill).2
      have hminus : minus 256 shift.toNat = some (256 - shift.toNat) := minus_of_le (by omega)
      have hplaces : 256 - shift.toNat < 256 := by omega
      simp only [sar, Word.sar, bit_sign, shiftRight, shiftLeft, hsmall, hfill, hminus, hplaces,
        if_true, Option.bind_eq_bind, Option.bind_some, Option.pure_def]
    · simp only [sar, Word.sar, bit_sign, shiftRight, hsmall, hfill, if_true, if_false,
        Bool.false_eq_true, Option.bind_eq_bind, Option.bind_some, Option.pure_def]
  · simp only [sar, Word.sar, bit_sign, hsmall, if_false, Option.bind_eq_bind, Option.bind_some,
      Option.pure_def]

theorem binary_eq (op : BinaryOperation) (a b : Word) : binary op a b = some (op.apply a b) := by
  cases op with
  | div => exact div_eq a b
  | sdiv => exact sdiv_eq a b
  | mod => exact mod_eq a b
  | smod => exact smod_eq a b
  | exp => exact squareAndMultiply_eq 256 a b 1#256
  | signExtend => exact signExtend_eq a b
  | slt => simp [binary, signedLess_eq, BinaryOperation.apply, Word.slt]
  | sgt => simp [binary, signedLess_eq, BinaryOperation.apply, Word.sgt]
  | byte => exact byte_eq a b
  | shl => exact shl_eq a b
  | shr => exact shr_eq a b
  | sar => exact sar_eq a b
  | add | mul | sub | lt | gt | eq | and | or | xor => rfl

theorem ternary_eq (op : TernaryOperation) (a b c : Word) :
    ternary op a b c = some (op.apply a b c) := by
  cases op with
  | addMod => exact addMod_eq a b c
  | mulMod => exact mulMod_eq a b c

end Strict

end WordMachine
