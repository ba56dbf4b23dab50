import WordMachine.Word.Basic

/-!
# Signed words

A word also stands for a two's complement integer in `[-2^255, 2^255)`.
Division goes through sign and magnitude: the magnitudes are divided as
unsigned words and the sign is put back.  The magnitude of `-2^255` is the word
`2^255`, its own negative, which is why `-2^255` divided by `-1` is again
`-2^255`.
-/

namespace WordMachine

/-- An integer as its sign and its distance from zero. -/
structure SignedMagnitude where
  negative : Bool
  magnitude : Word
deriving DecidableEq, Repr

namespace Word

def isNegative (w : Word) : Bool := w.getLsbD 255

def negate (w : Word) : Word := ~~~w + 1#256

def toSigned (w : Word) : SignedMagnitude :=
  if w.isNegative then ⟨true, w.negate⟩ else ⟨false, w⟩

def ofSigned (s : SignedMagnitude) : Word :=
  if s.negative then s.magnitude.negate else s.magnitude

/-- The quotient toward zero: it is negative when the signs differ. -/
def sdiv (a b : Word) : Word :=
  if b = 0#256 then 0#256
  else
    let x := a.toSigned
    let y := b.toSigned
    ofSigned ⟨x.negative != y.negative, x.magnitude / y.magnitude⟩

/-- The remainder of the quotient toward zero; it has the sign of the dividend. -/
def smod (a b : Word) : Word :=
  if b = 0#256 then 0#256
  else
    let x := a.toSigned
    let y := b.toSigned
    ofSigned ⟨x.negative, x.magnitude % y.magnitude⟩

/-- With equal signs the signed order is the unsigned one. -/
def signedLess (a b : Word) : Bool :=
  match a.isNegative, b.isNegative with
  | true, false => true
  | false, true => false
  | _, _ => a.toNat < b.toNat

def slt (a b : Word) : Word := ofBool (signedLess a b)

def sgt (a b : Word) : Word := ofBool (signedLess b a)

/-- Extends the sign of `x` from byte `b`, the least significant byte being
byte 0.  From byte 31 on there is nothing above the sign. -/
def signExtend (b x : Word) : Word :=
  if b.toNat < 31 then
    let signBit := b.toNat * 8 + 7
    let mask := (1#256 <<< (signBit + 1)) - 1#256
    if x.getLsbD signBit then x ||| ~~~mask else x &&& mask
  else x

/-- The shift that keeps the sign: vacated bits take it. -/
def sar (shift value : Word) : Word :=
  if shift.toNat < 256 then
    let shifted := value >>> shift.toNat
    if value.isNegative && 0 < shift.toNat then shifted ||| (maximum <<< (256 - shift.toNat))
    else shifted
  else if value.isNegative then maximum else 0#256

end Word

end WordMachine
