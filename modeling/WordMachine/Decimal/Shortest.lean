/-!
# Decimals for binary fractions

A 64-bit floating number other than zero is `mantissa * 2 ^ exponent`.  Among
the decimals that lie nearer to it than to any other such number, those of the
fewest digits are taken, and of these the nearest.  All comparisons are between
natural numbers.
-/

namespace WordMachine

/-- The decimal `digits * 10 ^ exponent`. -/
structure Decimal where
  digits : Nat
  exponent : Int
deriving DecidableEq, Repr

/-- A finite number of the 64-bit format without its sign. -/
structure BinaryFraction where
  mantissa : Nat
  exponent : Int
  /-- The number below is half as far away as the number above. -/
  narrowBelow : Bool
deriving DecidableEq, Repr

namespace BinaryFraction

def ofBits (bits : Nat) : BinaryFraction :=
  let field : Nat := bits / Nat.pow 2 52 % Nat.pow 2 11
  let fraction : Nat := bits % Nat.pow 2 52
  if field = 0 then ⟨fraction, -1074, false⟩
  else ⟨fraction + Nat.pow 2 52, (field : Int) - 1075, fraction = 0 ∧ 1 < field⟩

def ofFloat (x : Float) : BinaryFraction := ofBits (x.toBits.toNat % Nat.pow 2 63)

/-- `base ^ exponent` as a factor of a numerator or, below zero, of a denominator. -/
def factors (base : Nat) (exponent : Int) : Nat × Nat :=
  if 0 ≤ exponent then (base.pow exponent.toNat, 1) else (1, base.pow (-exponent).toNat)

/-- A quarter of the unit of the mantissa, as a fraction; the number and the ends
of its neighbourhood are whole multiples of it. -/
def quarter (x : BinaryFraction) : Nat × Nat := factors 2 (x.exponent - 2)

/-- The multiples of `10 ^ k` next to the number that stand for it, the nearer
one first. -/
def candidates (x : BinaryFraction) (k : Int) : List Nat :=
  let (scale, unit) := x.quarter
  let (tenUp, tenDown) := factors 10 k
  let scale := scale * tenDown
  let unit := unit * tenUp
  let value := 4 * x.mantissa * scale
  let low := (4 * x.mantissa - if x.narrowBelow then 1 else 2) * scale
  let high := (4 * x.mantissa + 2) * scale
  let inside (d : Nat) : Bool :=
    if x.mantissa % 2 = 0 then low ≤ d * unit && d * unit ≤ high
    else low < d * unit && d * unit < high
  let below := value / unit
  let remainder := value % unit
  let belowFirst := 2 * remainder < unit || (2 * remainder == unit && below % 2 == 0)
  (if belowFirst then [below, below + 1] else [below + 1, below]).filter fun d ↦ 0 < d && inside d

/-- The exponent of the leading decimal digit: the first `e` from `start` down
with `10 ^ e` not above the number. -/
def leadingExponent (x : BinaryFraction) : Nat → Int → Int
  | 0, e => e
  | fuel + 1, e =>
    let (scale, unit) := x.quarter
    let (tenUp, tenDown) := factors 10 e
    if unit * tenUp ≤ 4 * x.mantissa * scale * tenDown then e else leadingExponent x fuel (e - 1)

/-- Tries one digit, then two, and so on. -/
def search (x : BinaryFraction) (leading : Int) : Nat → Nat → Decimal
  | 0, _ => ⟨0, 0⟩
  | fuel + 1, count =>
    let k := leading - (count : Int)
    match x.candidates k with
    | d :: _ => ⟨d, k⟩
    | [] => search x leading fuel (count + 1)

/-- Seventeen digits are always enough. -/
def shortest (x : BinaryFraction) : Decimal :=
  if x.mantissa = 0 then ⟨0, 0⟩
  else x.search (x.leadingExponent 640 309) 18 0

/-- The multiple of `10 ^ -places` nearest to the number, as a count of these
units; a half goes to the even neighbour. -/
def rounded (x : BinaryFraction) (places : Nat) : Nat :=
  let (up, down) := factors 2 x.exponent
  let numerator := x.mantissa * up * Nat.pow 10 places
  let below := numerator / down
  let remainder := numerator % down
  if 2 * remainder < down ∨ (2 * remainder = down ∧ below % 2 = 0) then below else below + 1

end BinaryFraction

namespace Decimal

/-- Drops zeros at the end. -/
def strip : Nat → Decimal → Decimal
  | 0, d => d
  | fuel + 1, d =>
    if d.digits ≠ 0 ∧ d.digits % 10 = 0 then strip fuel ⟨d.digits / 10, d.exponent + 1⟩ else d

/-- Exponents of the leading digit from -5 to 15 are written out, with at least
one digit on each side of the point; others follow an `e`, always with their
sign. -/
def text (d : Decimal) : String :=
  let d := strip 20 d
  let digits := Nat.toDigits 10 d.digits
  let point := (digits.length : Int) + d.exponent
  if 0 ≤ d.exponent ∧ point ≤ 16 then
    String.ofList (digits ++ List.replicate d.exponent.toNat '0' ++ ['.', '0'])
  else if 0 < point ∧ point ≤ 16 then
    String.ofList (digits.take point.toNat ++ ['.'] ++ digits.drop point.toNat)
  else if -5 < point ∧ point ≤ 0 then
    String.ofList (['0', '.'] ++ List.replicate (-point).toNat '0' ++ digits)
  else
    let mantissa := match digits with
      | [c] => [c]
      | c :: rest => c :: '.' :: rest
      | [] => []
    String.ofList mantissa ++ (if 0 < point then "e+" else "e") ++ toString (point - 1)

end Decimal

/-- The shortest decimal that reads back as `x`. -/
def shortestText (x : Float) : String :=
  let sign := if x.toBits.toNat / Nat.pow 2 63 = 1 then "-" else ""
  let fraction := BinaryFraction.ofFloat x
  sign ++ if fraction.mantissa = 0 then "0.0" else fraction.shortest.text

/-- A number that is not negative with two decimal places. -/
def twoPlaces (x : Float) : String :=
  let hundredths := (BinaryFraction.ofFloat x).rounded 2
  toString (hundredths / 100) ++ "." ++
    String.ofList [Nat.digitChar (hundredths % 100 / 10), Nat.digitChar (hundredths % 10)]

end WordMachine
