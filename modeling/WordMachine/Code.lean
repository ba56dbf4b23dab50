import WordMachine.Operation.Metadata
import WordMachine.Word.BigEndian

/-!
# Code

A program is a string of bytes.  Any byte may be executed; only a byte that
marks a destination may be jumped to.
-/

namespace WordMachine

abbrev Code := Array UInt8

namespace Code

/-- The number in the `size` bytes after position `pc`. -/
def immediate (code : Code) (pc size : Nat) : Except Fault Word :=
  let last := pc + size
  if last < code.size then Word.ofBytes (code.extract (pc + 1) (last + 1)).toList
  else .error (.pcOutOfBounds last)

/-- A destination as a position in the code.  The position just behind the
last byte is inside the bounds, but nothing marks it. -/
def jumpTarget (code : Code) (destination : Word) : Except Fault Nat :=
  match destination.toSize? with
  | some target =>
    if target ≤ code.size then
      if code[target]? = some Operation.jumpdestByte then .ok target
      else .error (.jumpToInvalidDestination target)
    else .error (.jumpOutOfBounds destination)
  | none => .error (.jumpOutOfBounds destination)

end Code

end WordMachine
