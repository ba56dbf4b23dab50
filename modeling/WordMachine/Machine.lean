import WordMachine.Code
import WordMachine.Memory
import WordMachine.Stack

/-!
# The machine

A machine is a program, the position it has reached in it, the operand stack
and the memory.
-/

namespace WordMachine

structure Machine where
  code : Code
  pc : Nat
  stack : Stack
  memory : Memory

namespace Machine

def start (code : Code) (memoryLimit : Nat) : Machine :=
  ⟨code, 0, Stack.empty, Memory.withLimit memoryLimit⟩

/-- The byte to be executed next; none at the end of the code. -/
def currentByte? (m : Machine) : Option UInt8 := m.code[m.pc]?

def immediate (m : Machine) (size : Nat) : Except Fault Word :=
  m.code.immediate m.pc size

def jumpTarget (m : Machine) (destination : Word) : Except Fault Nat :=
  m.code.jumpTarget destination

end Machine

end WordMachine
