import WordMachine.Word.Basic

/-!
# The world around a program

Accounts by address, and the transaction and block in which a program runs.
-/

namespace WordMachine

/-- Twenty bytes. -/
structure Address where
  bytes : List UInt8
  length_bytes : bytes.length = 20
deriving DecidableEq, Repr

namespace Address

def zero : Address := ⟨List.replicate 20 0, by simp⟩

def ofBytes? (bytes : List UInt8) : Option Address :=
  if h : bytes.length = 20 then some ⟨bytes, h⟩ else none

end Address

structure Account where
  balance : Word
  code : List UInt8
deriving DecidableEq, Repr

/-- Accounts with their addresses; no address occurs twice. -/
structure World where
  entries : List (Address × Account)
deriving DecidableEq, Repr

namespace World

def empty : World := ⟨[]⟩

def insert (w : World) (address : Address) (account : Account) : World :=
  ⟨(address, account) :: w.entries.filter fun entry ↦ entry.1 != address⟩

def account? (w : World) (address : Address) : Option Account :=
  w.entries.lookup address

def size (w : World) : Nat := w.entries.length

def isEmpty (w : World) : Bool := w.entries.isEmpty

end World

structure Transaction where
  recipient : Address
  sender : Address
  origin : Address
  gasPrice : Word
  value : Word
  data : List UInt8
deriving DecidableEq, Repr

namespace Transaction

def default : Transaction :=
  ⟨Address.zero, Address.zero, Address.zero, 0#256, 0#256, []⟩

end Transaction

structure Block where
  number : Word
  timestamp : Word
  gasLimit : Word
  coinbase : Address
  difficulty : Word
  chainId : Word
  baseFee : Word
deriving DecidableEq, Repr

namespace Block

def default : Block :=
  ⟨0#256, 0#256, 30000000#256, Address.zero, 0#256, 1#256, 0#256⟩

end Block

structure Environment where
  transaction : Transaction
  block : Block
  world : World
deriving DecidableEq, Repr

namespace Environment

def default : Environment := ⟨Transaction.default, Block.default, World.empty⟩

end Environment

end WordMachine
