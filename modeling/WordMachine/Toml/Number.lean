import WordMachine.Text.Hex
import WordMachine.Toml.Basic

/-!
# Numbers

Integers have 64 bits, in one of four bases.  Single underscores may stand
between digits.  Numbers with a point or an exponent may not be too large for
a double; below zero that is not checked.
-/

namespace WordMachine

namespace Toml

def digit? (base : Nat) (c : Char) : Option Nat :=
  (Hex.digitValue? c).filter (· < base)

/-- A row of digits: its value, its length, and what follows it. -/
structure DigitRow where
  value : Nat
  length : Nat
  rest : List Char

/-- More digits behind some. -/
def digitsFrom (base value length : Nat) : List Char → Option DigitRow
  | '_' :: c :: cs =>
    match digit? base c with
    | some d => digitsFrom base (value * base + d) (length + 1) cs
    | none => none
  | c :: cs =>
    match digit? base c with
    | some d => digitsFrom base (value * base + d) (length + 1) cs
    | none => if c = '_' then none else some ⟨value, length, c :: cs⟩
  | [] => some ⟨value, length, []⟩

/-- A row of digits that may begin with zeros. -/
def digits (base : Nat) : List Char → Option DigitRow
  | [] => none
  | c :: cs => do
    let d ← digit? base c
    digitsFrom base d 1 cs

/-- A row of decimal digits in which a zero at the head stands alone. -/
def decimal : List Char → Option DigitRow
  | '0' :: cs => some ⟨0, 1, cs⟩
  | cs => digits 10 cs

/-- A sign or none: whether it is a minus, and what follows. -/
def sign : List Char → Bool × List Char
  | '-' :: cs => (true, cs)
  | '+' :: cs => (false, cs)
  | cs => (false, cs)

def integerBound : Nat := Nat.pow 2 63

def integer? (n : Int) (rest : List Char) : Option (TomlValue × List Char) :=
  if -(integerBound : Int) ≤ n ∧ n < integerBound then some (.integer n, rest) else none

/-- The least number that a double rounds to infinity. -/
def infinityBound : Nat := Nat.pow 2 1024 - Nat.pow 2 970

/-- Whether `mantissa * 10 ^ exponent` is too large.  The number of digits before
the point settles it in nearly all cases. -/
def overflows (mantissa : Nat) (exponent : Int) : Bool :=
  let whole := ((Nat.toDigits 10 mantissa).length : Int) + exponent
  if mantissa = 0 ∨ whole ≤ 308 then false
  else if 310 ≤ whole then true
  else if 0 ≤ exponent then infinityBound ≤ mantissa * Nat.pow 10 exponent.toNat
  else infinityBound * Nat.pow 10 (-exponent).toNat ≤ mantissa

def real? (negative : Bool) (mantissa : Nat) (exponent : Int) (rest : List Char) :
    Option (TomlValue × List Char) :=
  if !negative && overflows mantissa exponent then none else some (.real, rest)

/-- A number with a point or an exponent, after the digits before both. -/
def afterWhole (negative : Bool) (row : DigitRow) : Option (TomlValue × List Char) :=
  let exponentOr (mantissa : Nat) (places : Nat) (rest : List Char)
      (other : Option (TomlValue × List Char)) : Option (TomlValue × List Char) :=
    match rest with
    | c :: cs =>
      if c = 'e' ∨ c = 'E' then do
        let (below, cs) := sign cs
        let power ← digits 10 cs
        let exponent : Int := if below then -power.value else power.value
        real? negative mantissa (exponent - places) power.rest
      else other
    | [] => other
  match row.rest with
  | '.' :: cs => do
    let places ← digits 10 cs
    let mantissa := row.value * Nat.pow 10 places.length + places.value
    exponentOr mantissa places.length places.rest
      (real? negative mantissa (-places.length) places.rest)
  | rest =>
    exponentOr row.value 0 rest (integer? (if negative then -row.value else row.value) rest)

def inBase (base : Nat) (cs : List Char) : Option (TomlValue × List Char) := do
  let row ← digits base cs
  integer? row.value row.rest

/-- A number at the head of a text.  Only decimal ones have signs. -/
def number (cs : List Char) : Option (TomlValue × List Char) :=
  match cs with
  | '0' :: 'x' :: cs => inBase 16 cs
  | '0' :: 'o' :: cs => inBase 8 cs
  | '0' :: 'b' :: cs => inBase 2 cs
  | _ =>
    let (negative, cs) := sign cs
    match cs with
    | 'i' :: 'n' :: 'f' :: cs => some (.real, cs)
    | 'n' :: 'a' :: 'n' :: cs => some (.real, cs)
    | _ => do
      let row ← decimal cs
      afterWhole negative row

end Toml

end WordMachine
