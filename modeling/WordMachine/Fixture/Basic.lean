import WordMachine.Word.Basic
import WordMachine.World

/-!
# Fixtures

A fixture is a program together with the world around it and what is expected
of its run.  What a fixture leaves out takes a default, and an expectation that
it leaves out is not checked.
-/

namespace WordMachine

/-- A program in readable and in executable form. -/
structure FixtureCode where
  assembly : Option String
  bytecode : Option (List UInt8)
deriving DecidableEq, Repr

structure FixtureTransaction where
  recipient : Option Address
  sender : Option Address
  origin : Option Address
  gasPrice : Option Word
  value : Option Word
  data : Option (List UInt8)
deriving DecidableEq, Repr

structure FixtureBlock where
  baseFee : Option Word
  coinbase : Option Address
  timestamp : Option Word
  number : Option Word
  difficulty : Option Word
  gasLimit : Option Word
  chainId : Option Word
deriving DecidableEq, Repr

structure FixtureAccount where
  balance : Option Word
  code : Option FixtureCode
deriving DecidableEq, Repr

structure Expectation where
  /-- Literals, the top of the stack first. -/
  stack : Option (List String)
  success : Option Bool
  payload : Option (List UInt8)
deriving DecidableEq, Repr

structure Fixture where
  name : String
  hint : Option String
  code : FixtureCode
  transaction : Option FixtureTransaction
  block : Option FixtureBlock
  /-- Accounts by the text of their address, in the order of these texts. -/
  state : Option (List (String × FixtureAccount))
  expectation : Expectation
deriving DecidableEq, Repr

namespace FixtureCode

def blank : FixtureCode := ⟨none, none⟩

end FixtureCode

namespace FixtureTransaction

def blank : FixtureTransaction := ⟨none, none, none, none, none, none⟩

end FixtureTransaction

namespace FixtureBlock

def blank : FixtureBlock := ⟨none, none, none, none, none, none, none⟩

end FixtureBlock

namespace FixtureAccount

def blank : FixtureAccount := ⟨none, none⟩

end FixtureAccount

namespace Expectation

def blank : Expectation := ⟨none, none, none⟩

end Expectation

namespace Fixture

def blank : Fixture := ⟨"", none, FixtureCode.blank, none, none, none, Expectation.blank⟩

end Fixture

end WordMachine
