import WordMachine.Word.Basic
import WordMachine.Fault

/-!
# Words as bytes

The most significant byte comes first.  Reading accepts any number of bytes as
long as those beyond the last 32 are zero; writing gives exactly as many bytes
as asked for, dropping or adding high-order ones.
-/

namespace WordMachine

namespace Word

/-- The number whose base-256 digits are `bytes`, continuing from `start`. -/
def accumulate (start : Nat) (bytes : List UInt8) : Nat :=
  bytes.foldl (fun n b ↦ n * 256 + b.toNat) start

def ofBytes (bytes : List UInt8) : Except Fault Word :=
  let excess := bytes.length - 32
  if (bytes.take excess).all (· == 0) then
    .ok (BitVec.ofNat 256 (accumulate 0 (bytes.drop excess)))
  else .error .stackValueTooBig

theorem ofBytes_of_length_le {bytes : List UInt8} (h : bytes.length ≤ 32) :
    ofBytes bytes = .ok (BitVec.ofNat 256 (accumulate 0 bytes)) := by
  simp [ofBytes, Nat.sub_eq_zero_of_le h]

/-- The last `count` base-256 digits of `n`, put in front of `tail`. -/
def lowBytes : Nat → Nat → List UInt8 → List UInt8
  | 0, _, tail => tail
  | count + 1, n, tail => lowBytes count (n / 256) (UInt8.ofNat (n % 256) :: tail)

def toBytes (w : Word) (length : Nat) : List UInt8 :=
  lowBytes length w.toNat []

def toOffset (w : Word) : Except Fault Nat :=
  match w.toSize? with
  | some offset => .ok offset
  | none => .error .invalidMemoryOffset

end Word

end WordMachine
