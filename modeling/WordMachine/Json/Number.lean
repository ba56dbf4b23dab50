import WordMachine.Json.Token

/-!
# The value of a JSON number

A number without fraction and exponent is an integer if 64 bits can hold it.
Any other is a floating number: as many leading digits as 64 bits can hold make
up a significand, which is then scaled by a power of ten.
-/

namespace WordMachine

namespace JsonNumeral

def significandBound : Nat := Nat.pow 2 64

/-- Appends digits to `n` as long as 64 bits can hold it; the others are left
over. -/
def absorb (n : Nat) : List Char → Nat × List Char
  | [] => (n, [])
  | c :: cs =>
    let next := n * 10 + (c.toNat - '0'.toNat)
    if next < significandBound then absorb next cs else (n, c :: cs)

def powerOfTen (n : Nat) : Float := Float.ofScientific 1 false n

/-- Scales by `10 ^ exponent`, in parts where the power itself is out of range. -/
def scale : Nat → Float → Int → Except JsonProblem Float
  | 0, x, _ => .ok x
  | fuel + 1, x, exponent =>
    if 0 ≤ exponent then
      if exponent ≤ 308 then
        let y := x * powerOfTen exponent.toNat
        if y.isInf then .error (.malformed .numberOutOfRange) else .ok y
      else if x == 0.0 then .ok x
      else .error (.malformed .numberOutOfRange)
    else if -308 ≤ exponent then .ok (x / powerOfTen (-exponent).toNat)
    else if x == 0.0 then .ok x
    else scale fuel (x / powerOfTen 308) (exponent + 308)

def real (negative : Bool) (significand : Nat) (exponent : Int) : Except JsonProblem JsonKind := do
  let x ← scale 8 (UInt64.ofNat significand).toFloat exponent
  return .real (if negative then -x else x)

def exponentBound : Nat := Nat.pow 2 31

/-- The number with the exponent that follows `e`. -/
def withExponent (negative : Bool) (significand : Nat) (exponent : Int) (cs : List Char) :
    Except JsonProblem JsonKind :=
  let (down, cs) := match cs with
    | '+' :: rest => (false, rest)
    | '-' :: rest => (true, rest)
    | _ => (false, cs)
  match JsonToken.splitDigits cs with
  | ([], []) => .error (.ended .value)
  | ([], _) => .error (.malformed .invalidNumber)
  | (digits, _) =>
    let n := JsonToken.digitsValue 0 digits
    if n < exponentBound then
      real negative significand (if down then exponent - n else exponent + n)
    else if significand ≠ 0 ∧ !down then .error (.malformed .numberOutOfRange)
    else .ok (.real (if negative then -0.0 else 0.0))

def withOptionalExponent (negative : Bool) (significand : Nat) (exponent : Int) :
    List Char → Except JsonProblem JsonKind
  | 'e' :: cs => withExponent negative significand exponent cs
  | 'E' :: cs => withExponent negative significand exponent cs
  | _ => real negative significand exponent

/-- The number with the digits that follow the point; `exponent` counts the
digits before it that did not fit. -/
def withFraction (negative : Bool) (significand : Nat) (exponent : Int) (cs : List Char) :
    Except JsonProblem JsonKind :=
  match JsonToken.splitDigits cs with
  | ([], []) => .error (.ended .value)
  | ([], _) => .error (.malformed .invalidNumber)
  | (digits, rest) =>
    let (n, left) := absorb significand digits
    withOptionalExponent negative n (exponent - (digits.length - left.length : Nat)) rest

/-- The number after its sign. -/
def read (negative : Bool) (cs : List Char) : Except JsonProblem JsonKind :=
  match JsonToken.splitDigits cs with
  | ([], []) => .error (.ended .value)
  | ([], _) => .error (.malformed .invalidNumber)
  | ('0' :: _ :: _, _) => .error (.malformed .invalidNumber)
  | (digits, rest) =>
    let (n, left) := absorb 0 digits
    match rest with
    | '.' :: cs => withFraction negative n left.length cs
    | 'e' :: cs => withExponent negative n left.length cs
    | 'E' :: cs => withExponent negative n left.length cs
    | _ =>
      if left.isEmpty ∧ !negative then .ok (.integer n)
      else if left.isEmpty ∧ 0 < n ∧ n ≤ Nat.pow 2 63 then .ok (.integer (-n))
      else real negative n left.length

end JsonNumeral

end WordMachine
