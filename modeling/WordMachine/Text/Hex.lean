import WordMachine.Text.Quoted

/-!
# Hexadecimal text

Bytes are written as pairs of lower-case digits and read from pairs of either
case.  Lengths and positions count the bytes of the text's UTF-8 encoding, and
what is reported is the first byte that is no digit.  A character before that
byte is a digit and hence one byte long, so counting characters up to it gives
the same position.
-/

namespace WordMachine

/-- Why a text is not the hexadecimal form of a byte string. -/
inductive HexError where
  | oddLength
  | badByte (byte : UInt8) (position : Nat)
deriving DecidableEq, Repr

namespace HexError

/-- The offending byte is shown as the character of the same number. -/
def message : HexError → String
  | .oddLength => "Odd number of digits"
  | .badByte byte position =>
    "Invalid character " ++ Quoted.character (Char.ofNat byte.toNat) ++ " at position " ++
      toString position

end HexError

namespace Hex

def digitValue? (c : Char) : Option Nat :=
  if '0' ≤ c ∧ c ≤ '9' then some (c.toNat - '0'.toNat)
  else if 'a' ≤ c ∧ c ≤ 'f' then some (c.toNat - 'a'.toNat + 10)
  else if 'A' ≤ c ∧ c ≤ 'F' then some (c.toNat - 'A'.toNat + 10)
  else none

def byteDigits (b : UInt8) : List Char :=
  [Nat.digitChar (b.toNat / 16), Nat.digitChar (b.toNat % 16)]

def encode (bytes : List UInt8) : String :=
  String.ofList (bytes.flatMap byteDigits)

/-- The shortest digits of a number, one digit for zero. -/
def ofNat (n : Nat) : String :=
  String.ofList (Nat.toDigits 16 n)

def leadByte (c : Char) : UInt8 :=
  (String.utf8EncodeChar c).headD 0

def digitAt (position : Nat) (c : Char) : Except HexError Nat :=
  match digitValue? c with
  | some value => .ok value
  | none => .error (.badByte (leadByte c) position)

/-- Reads pairs of digits, the first of which stands at `position`. -/
def decodeFrom (position : Nat) : List Char → Except HexError (List UInt8)
  | [] => .ok []
  | [c] => do
    let _ ← digitAt position c
    .error .oddLength
  | high :: low :: rest => do
    let high ← digitAt position high
    let low ← digitAt (position + 1) low
    let bytes ← decodeFrom (position + 2) rest
    return UInt8.ofNat (high * 16 + low) :: bytes

/-- Reads digit pairs; an odd number of bytes is reported before any bad one. -/
def decode (text : String) : Except HexError (List UInt8) :=
  if text.utf8ByteSize % 2 = 1 then .error .oddLength
  else decodeFrom 0 text.toList

/-- The text without the mark `0x`, which is taken off once and only in lower
case. -/
def unmarked (text : String) : String :=
  match text.toList with
  | '0' :: 'x' :: rest => String.ofList rest
  | _ => text

/-- Reads digits with an optional mark; a missing first digit is zero. -/
def decodePadded (text : String) : Except HexError (List UInt8) :=
  let digits := unmarked text
  if digits.utf8ByteSize % 2 = 1 then decode ("0" ++ digits) else decode digits

end Hex

end WordMachine
