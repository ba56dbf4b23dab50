import WordMachine.Code

/-!
# Listings

The instructions of a program from its first byte to its last.  A byte that
stands for no operation is listed by its number, and an immediate that the end
of the code cuts off is listed as far as it goes.
-/

namespace WordMachine

structure Instruction where
  pc : Nat
  opcode : UInt8
  immediate : List UInt8
deriving DecidableEq, Repr

/-- Code bytes after the first of the instruction that begins with `byte`. -/
def immediateWidth (byte : UInt8) : Nat :=
  match Operation.ofByte? byte with
  | some op => op.immediateSize
  | none => 0

namespace Instruction

def name (i : Instruction) : String :=
  match Operation.ofByte? i.opcode with
  | some op => op.mnemonic
  | none => "INVALID(0x" ++ Hex.encode [i.opcode] ++ ")"

/-- The position in hexadecimal, of four digits at least. -/
def address (i : Instruction) : String :=
  let digits := Nat.toDigits 16 i.pc
  String.ofList (List.replicate (4 - digits.length) '0' ++ digits)

def line (i : Instruction) : String :=
  i.address ++ ": " ++ i.name ++
    if i.immediate.isEmpty then "" else " 0x" ++ Hex.encode i.immediate

end Instruction

/-- The instructions of `bytes`, whose first byte stands at `pc`. -/
def listingFrom (pc : Nat) (bytes : List UInt8) : List Instruction :=
  match bytes with
  | [] => []
  | opcode :: rest =>
    let width := immediateWidth opcode
    ⟨pc, opcode, rest.take width⟩ :: listingFrom (pc + 1 + width) (rest.drop width)
termination_by bytes.length
decreasing_by simp only [List.length_drop, List.length_cons]; omega

def listing (code : Code) : List Instruction := listingFrom 0 code.toList

end WordMachine
