/-!
# Words

A word is a 256-bit string read as a natural number below `2 ^ 256`.  Sums,
differences and products wrap; a quotient or remainder by zero is zero; a
shift by 256 or more clears the word.  All operations are total, so an
instruction that only computes can never fail for the sake of its operands.
-/

namespace WordMachine

abbrev Word := BitVec 256

namespace Word

def maximum : Word := BitVec.allOnes 256

def ofBool (b : Bool) : Word := if b then 1#256 else 0#256

/-! ## Arithmetic modulo `2 ^ 256` -/

def add (a b : Word) : Word := a + b

def sub (a b : Word) : Word := a - b

def mul (a b : Word) : Word := a * b

def div (a b : Word) : Word := if b = 0#256 then 0#256 else a / b

def mod (a b : Word) : Word := if b = 0#256 then 0#256 else a % b

/-- The sum is taken at twice the width, so that no carry is lost before the
reduction by `n`. -/
def addMod (a b n : Word) : Word :=
  if n = 0#256 then 0#256
  else ((a.setWidth 512 + b.setWidth 512) % n.setWidth 512).setWidth 256

def mulMod (a b n : Word) : Word :=
  if n = 0#256 then 0#256
  else ((a.setWidth 512 * b.setWidth 512) % n.setWidth 512).setWidth 256

/-- One round per bit of the exponent, lowest first: `acc * b ^ e` is the same
before and after a round. -/
def squareAndMultiply : Nat → Word → Word → Word → Word
  | 0, _, _, acc => acc
  | rounds + 1, b, e, acc =>
    if e = 0#256 then acc
    else
      squareAndMultiply rounds (b * b) (e >>> 1) (if e.getLsbD 0 then acc * b else acc)

/-- The power `base ^ exponent`; an exponent has 256 bits, so 256 rounds use
it up. -/
def exp (base exponent : Word) : Word :=
  squareAndMultiply 256 base exponent 1#256

/-! ## Comparison -/

def lt (a b : Word) : Word := ofBool (a.toNat < b.toNat)

def gt (a b : Word) : Word := ofBool (b.toNat < a.toNat)

def eq (a b : Word) : Word := ofBool (a == b)

def isZero (a : Word) : Word := ofBool (a == 0#256)

/-! ## Bits -/

def and (a b : Word) : Word := a &&& b

def or (a b : Word) : Word := a ||| b

def xor (a b : Word) : Word := a ^^^ b

def not (a : Word) : Word := ~~~a

/-- Byte `n` of `value`, the most significant byte being byte 0; zero beyond
byte 31. -/
def byte (n value : Word) : Word :=
  if n.toNat < 32 then (value.extractLsb' (8 * (31 - n.toNat)) 8).setWidth 256 else 0#256

def shl (shift value : Word) : Word :=
  if shift.toNat < 256 then value <<< shift.toNat else 0#256

def shr (shift value : Word) : Word :=
  if shift.toNat < 256 then value >>> shift.toNat else 0#256

/-! ## Sizes

Positions in code and memory are 64-bit numbers. -/

/-- The first number that is not a position. -/
def sizeBound : Nat := Nat.pow 2 64

def toSize? (w : Word) : Option Nat :=
  if w.toNat < sizeBound then some w.toNat else none

def ofSize (n : Nat) : Word := BitVec.ofNat 256 n

end Word

end WordMachine
