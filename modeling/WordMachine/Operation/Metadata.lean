import WordMachine.Operation.Basic

/-!
# The operation table

For each operation its mnemonic, the number of stack words it takes or looks
at, and the number of code bytes that belong to it beyond the first.  The table
is about operations; nothing in it is used to carry them out.
-/

namespace WordMachine

namespace UnaryOperation

def mnemonic : UnaryOperation → String
  | isZero => "ISZERO"
  | not => "NOT"

end UnaryOperation

namespace BinaryOperation

def mnemonic : BinaryOperation → String
  | add => "ADD"
  | mul => "MUL"
  | sub => "SUB"
  | div => "DIV"
  | sdiv => "SDIV"
  | mod => "MOD"
  | smod => "SMOD"
  | exp => "EXP"
  | signExtend => "SIGNEXTEND"
  | lt => "LT"
  | gt => "GT"
  | slt => "SLT"
  | sgt => "SGT"
  | eq => "EQ"
  | and => "AND"
  | or => "OR"
  | xor => "XOR"
  | byte => "BYTE"
  | shl => "SHL"
  | shr => "SHR"
  | sar => "SAR"

end BinaryOperation

namespace TernaryOperation

def mnemonic : TernaryOperation → String
  | addMod => "ADDMOD"
  | mulMod => "MULMOD"

end TernaryOperation

namespace Operation

def mnemonic : Operation → String
  | stop => "STOP"
  | unary op => op.mnemonic
  | binary op => op.mnemonic
  | ternary op => op.mnemonic
  | pop => "POP"
  | mload => "MLOAD"
  | mstore => "MSTORE"
  | mstore8 => "MSTORE8"
  | jump => "JUMP"
  | jumpi => "JUMPI"
  | pc => "PC"
  | msize => "MSIZE"
  | jumpdest => "JUMPDEST"
  | push width => "PUSH" ++ toString width
  | dup position => "DUP" ++ toString position
  | swap distance => "SWAP" ++ toString distance
  | ret => "RETURN"
  | revert => "REVERT"

/-- Stack words consumed or inspected. -/
def inputs : Operation → Nat
  | stop | pc | msize | jumpdest | push _ => 0
  | unary _ | pop | mload | jump => 1
  | binary _ | mstore | mstore8 | jumpi | ret | revert => 2
  | ternary _ => 3
  | dup position => position
  | swap distance => distance + 1

/-- Code bytes after the first. -/
def immediateSize : Operation → Nat
  | push width => width
  | _ => 0

def summary (op : Operation) : String :=
  "Operation \x7b name: \"" ++ op.mnemonic ++ "\", inputs: " ++ toString op.inputs ++
    ", immediate: " ++ toString op.immediateSize ++ " \x7d"

end Operation

end WordMachine
