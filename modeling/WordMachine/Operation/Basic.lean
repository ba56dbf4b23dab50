import WordMachine.Word.Signed

/-!
# Operations

What a byte of code can ask for.  Operations on words alone are grouped by the
number of their operands; the others touch the stack as a whole, memory or the
flow of control.
-/

namespace WordMachine

inductive UnaryOperation where
  | isZero | not
deriving DecidableEq, Repr

inductive BinaryOperation where
  | add | mul | sub | div | sdiv | mod | smod | exp | signExtend
  | lt | gt | slt | sgt | eq
  | and | or | xor | byte | shl | shr | sar
deriving DecidableEq, Repr

inductive TernaryOperation where
  | addMod | mulMod
deriving DecidableEq, Repr

inductive Operation where
  | stop
  | unary (op : UnaryOperation)
  | binary (op : BinaryOperation)
  | ternary (op : TernaryOperation)
  | pop
  | mload
  | mstore
  | mstore8
  | jump
  | jumpi
  | pc
  | msize
  | jumpdest
  /-- Pushes the number in the `width` bytes that follow. -/
  | push (width : Nat)
  /-- Pushes a copy of the word at a depth counted from 1. -/
  | dup (position : Nat)
  | swap (distance : Nat)
  | ret
  | revert
deriving DecidableEq, Repr

namespace UnaryOperation

def apply : UnaryOperation → Word → Word
  | isZero => Word.isZero
  | not => Word.not

end UnaryOperation

namespace BinaryOperation

/-- The first argument is the operand on top of the stack. -/
def apply : BinaryOperation → Word → Word → Word
  | add => Word.add
  | mul => Word.mul
  | sub => Word.sub
  | div => Word.div
  | sdiv => Word.sdiv
  | mod => Word.mod
  | smod => Word.smod
  | exp => Word.exp
  | signExtend => Word.signExtend
  | lt => Word.lt
  | gt => Word.gt
  | slt => Word.slt
  | sgt => Word.sgt
  | eq => Word.eq
  | and => Word.and
  | or => Word.or
  | xor => Word.xor
  | byte => Word.byte
  | shl => Word.shl
  | shr => Word.shr
  | sar => Word.sar

end BinaryOperation

namespace TernaryOperation

def apply : TernaryOperation → Word → Word → Word → Word
  | addMod => Word.addMod
  | mulMod => Word.mulMod

end TernaryOperation

namespace Operation

/-- The byte that stands for a jump destination. -/
def jumpdestByte : UInt8 := 0x5B

def pushByte (width : Nat) : UInt8 := UInt8.ofNat (0x5F + width)

def dupByte (position : Nat) : UInt8 := UInt8.ofNat (0x7F + position)

def swapByte (distance : Nat) : UInt8 := UInt8.ofNat (0x8F + distance)

/-- The operation that a byte stands for; most bytes stand for none. -/
def ofByte? (b : UInt8) : Option Operation :=
  match b.toNat with
  | 0x00 => some stop
  | 0x01 => some (binary .add)
  | 0x02 => some (binary .mul)
  | 0x03 => some (binary .sub)
  | 0x04 => some (binary .div)
  | 0x05 => some (binary .sdiv)
  | 0x06 => some (binary .mod)
  | 0x07 => some (binary .smod)
  | 0x08 => some (ternary .addMod)
  | 0x09 => some (ternary .mulMod)
  | 0x0A => some (binary .exp)
  | 0x0B => some (binary .signExtend)
  | 0x10 => some (binary .lt)
  | 0x11 => some (binary .gt)
  | 0x12 => some (binary .slt)
  | 0x13 => some (binary .sgt)
  | 0x14 => some (binary .eq)
  | 0x15 => some (unary .isZero)
  | 0x16 => some (binary .and)
  | 0x17 => some (binary .or)
  | 0x18 => some (binary .xor)
  | 0x19 => some (unary .not)
  | 0x1A => some (binary .byte)
  | 0x1B => some (binary .shl)
  | 0x1C => some (binary .shr)
  | 0x1D => some (binary .sar)
  | 0x50 => some pop
  | 0x51 => some mload
  | 0x52 => some mstore
  | 0x53 => some mstore8
  | 0x56 => some jump
  | 0x57 => some jumpi
  | 0x58 => some pc
  | 0x59 => some msize
  | 0x5B => some jumpdest
  | 0xF3 => some ret
  | 0xFD => some revert
  | n =>
    if 0x60 ≤ n ∧ n ≤ 0x7F then some (push (n - 0x5F))
    else if 0x80 ≤ n ∧ n ≤ 0x8F then some (dup (n - 0x7F))
    else if 0x90 ≤ n ∧ n ≤ 0x9F then some (swap (n - 0x8F))
    else none

end Operation

end WordMachine
