import WordMachine.Fault

/-!
# Scratch memory

Memory is a string of bytes, a whole number of words long, that grows when it
is used and never shrinks.  What lies beyond its size reads as zero, so growth
changes the size and no byte.

An access is settled in two parts.  `reach` decides whether the range of the
access can be had and what the size will be; `growTo` and `overwrite` then
cannot fail.
-/

namespace WordMachine

structure Memory where
  bytes : ByteArray
  limit : Nat

namespace Memory

/-- The largest block of bytes there can be. -/
def blockBound : Nat := Nat.pow 2 63 - 1

def defaultLimit : Nat := 32 * 1024 * 1024

def withLimit (limit : Nat) : Memory := ⟨ByteArray.empty, limit⟩

def size (m : Memory) : Nat := m.bytes.size

def byteAt (m : Memory) (address : Nat) : UInt8 := m.bytes[address]?.getD 0

/-- The least whole number of words, in bytes, that covers `n` bytes. -/
def aligned (n : Nat) : Nat := (n + 31) / 32 * 32

/-- The size after an access to `length` bytes at `offset`. -/
def reach (m : Memory) (offset length : Nat) : Except Fault Nat :=
  let stop := offset + length
  if Word.sizeBound ≤ stop then .error .invalidMemoryOffset
  else if stop ≤ m.size then .ok m.size
  else
    let size := aligned stop
    if Word.sizeBound ≤ size ∨ m.limit < size ∨ blockBound < size then
      .error .invalidMemoryOffset
    else .ok size

def zeroFill : Nat → ByteArray → ByteArray
  | 0, bytes => bytes
  | count + 1, bytes => zeroFill count (bytes.push 0)

def growTo (m : Memory) (size : Nat) : Memory :=
  { m with bytes := zeroFill (size - m.size) m.bytes }

/-- Puts the bytes at `offset` and after, in a buffer that has these places. -/
def splice (buffer : ByteArray) (offset : Nat) : List UInt8 → ByteArray
  | [] => buffer
  | b :: rest => splice (buffer.set! offset b) (offset + 1) rest

def overwrite (m : Memory) (offset : Nat) (bytes : List UInt8) : Memory :=
  { m with bytes := splice m.bytes offset bytes }

/-- The bytes of a range, zero beyond the size. -/
def window (m : Memory) (offset length : Nat) : List UInt8 :=
  (List.range length).map fun i ↦ m.byteAt (offset + i)

/-! ## Access -/

/-- Single bytes and words are the units of access. -/
def checkWidth (width : Nat) : Except Fault Unit :=
  if width = 1 ∨ width = 32 then .ok () else .error (.invalidMemoryValueSize width)

def read (m : Memory) (offset length : Nat) : Except Fault (List UInt8 × Memory) := do
  checkWidth length
  let size ← m.reach offset length
  return (m.window offset length, m.growTo size)

/-- The last `length` bytes, with zeros in front of a shorter string. -/
def fit (length : Nat) (bytes : List UInt8) : List UInt8 :=
  List.replicate (length - bytes.length) 0 ++ bytes.drop (bytes.length - length)

def write (m : Memory) (offset : Nat) (bytes : List UInt8) (length : Nat) :
    Except Fault Memory := do
  checkWidth length
  let size ← m.reach offset length
  return (m.growTo size).overwrite offset (fit length bytes)

/-- The size after reading a range: an empty one lies nowhere. -/
def reachRange (m : Memory) (offset length : Nat) : Except Fault Nat :=
  if length = 0 then .ok m.size else m.reach offset length

def readRange (m : Memory) (offset length : Nat) : Except Fault (List UInt8 × Memory) := do
  let size ← m.reachRange offset length
  return (m.window offset length, m.growTo size)

/-! ## Rows -/

def isZeroRow (m : Memory) (offset : Nat) : Bool :=
  (List.range 32).all fun i ↦ m.byteAt (offset + i) == 0

/-- The words of memory that are not zero, with their offsets. -/
def rows (m : Memory) : List (Nat × List UInt8) :=
  (List.range (m.size / 32)).filterMap fun i ↦
    if m.isZeroRow (32 * i) then none else some (32 * i, m.window (32 * i) 32)

end Memory

end WordMachine
