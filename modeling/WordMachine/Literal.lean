import WordMachine.Text.Blank
import WordMachine.Word.BigEndian

/-!
# Literals

A word written as a decimal number, or as `0x` and hexadecimal digits.  Blanks
around it are ignored, and no digits at all mean zero.
-/

namespace WordMachine

inductive LiteralError where
  | hex (error : HexError)
  | notANumber (text : String)
  | outOfRange (fault : Fault)
deriving DecidableEq, Repr

namespace LiteralError

def message : LiteralError → String
  | hex error => "Hex error: " ++ error.message
  | notANumber text => "Parse error: invalid stack literal: " ++ text
  | outOfRange fault => "EVM error: " ++ fault.message

end LiteralError

namespace Literal

/-- Appends decimal digits to the number `n`.  Going from left to right, a
number that has become too big is noticed before a bad character behind it. -/
def decimal (text : String) (n : Nat) : List Char → Except LiteralError Word
  | [] => .ok (BitVec.ofNat 256 n)
  | c :: cs =>
    if c.isDigit then
      let next := n * 10 + (c.toNat - '0'.toNat)
      if next < 2 ^ 256 then decimal text next cs else .error (.outOfRange .stackValueTooBig)
    else .error (.notANumber text)

/-- The digits after a first `0x`; one more `0x` is ignored. -/
def hexadecimal (digits : String) : Except LiteralError Word :=
  match Hex.decodePadded digits with
  | .error error => .error (.hex error)
  | .ok bytes =>
    match Word.ofBytes bytes with
    | .ok w => .ok w
    | .error fault => .error (.outOfRange fault)

def read (text : String) : Except LiteralError Word :=
  let cs := Text.trimmedChars text.toList
  match cs with
  | '-' :: _ => .error (.outOfRange .stackValueTooSmall)
  | '0' :: 'x' :: digits => hexadecimal (String.ofList digits)
  | _ => decimal (String.ofList cs) 0 cs

/-- Reads a list of literals up to the first bad one. -/
def readAll : List String → Except LiteralError (List Word)
  | [] => .ok []
  | text :: rest => do
    let w ← read text
    let ws ← readAll rest
    return w :: ws

end Literal

end WordMachine
