import WordMachine.Text.Hex
import WordMachine.Word.Basic

/-!
# Faults

The reasons for which an execution, or the reading of a word, fails.
-/

namespace WordMachine

inductive Fault where
  | stackOverflow
  | stackUnderflow
  | stackValueTooBig
  | stackValueTooSmall
  | invalidOpcode (byte : UInt8)
  /-- The last byte of an immediate would stand at `position`, which is not in
  the code. -/
  | pcOutOfBounds (position : Nat)
  | jumpOutOfBounds (destination : Word)
  | jumpToInvalidDestination (target : Nat)
  | invalidMemoryOffset
  | invalidMemoryValueSize (width : Nat)
  | stepLimitExceeded (limit : Nat)
deriving DecidableEq, Repr

namespace Fault

def message : Fault → String
  | stackOverflow => "stack overflow (max 1024)"
  | stackUnderflow => "stack underflow"
  | stackValueTooBig => "stack value too big"
  | stackValueTooSmall => "stack value too small"
  | invalidOpcode byte => "invalid opcode: 0x" ++ Hex.encode [byte]
  | pcOutOfBounds position => "pc out of bounds: " ++ toString position
  | jumpOutOfBounds destination => "jump out of bounds: " ++ toString destination.toNat
  | jumpToInvalidDestination target => "jump to invalid destination: " ++ toString target
  | invalidMemoryOffset => "invalid memory offset"
  | invalidMemoryValueSize width => "invalid memory value size: " ++ toString width
  | stepLimitExceeded limit => "step limit exceeded (limit: " ++ toString limit ++ ")"

/-! ## Computations that may fault -/

variable {α β : Type} {x : Except Fault α} {f : α → Except Fault β}

@[simp] theorem ok_bind (a : α) : ((.ok a : Except Fault α) >>= f) = f a := rfl

@[simp] theorem error_bind (fault : Fault) :
    ((.error fault : Except Fault α) >>= f) = .error fault := rfl

@[simp] theorem pure_eq_ok (a : α) : (pure a : Except Fault α) = .ok a := rfl

theorem bind_eq_ok_iff {b : β} : (x >>= f) = .ok b ↔ ∃ a, x = .ok a ∧ f a = .ok b := by
  cases x <;> simp [bind, Except.bind]

theorem bind_eq_error_iff {fault : Fault} :
    (x >>= f) = .error fault ↔ x = .error fault ∨ ∃ a, x = .ok a ∧ f a = .error fault := by
  cases x <;> simp [bind, Except.bind]

end Fault

end WordMachine
