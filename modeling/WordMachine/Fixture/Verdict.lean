import WordMachine.Fixture.Basic
import WordMachine.Fixture.Trouble

/-!
# Running a fixture

The environment of a fixture, the run of its program, and the comparison with
what is expected.  A fixture fails for the first reason that is found: missing
bytecode, a bad account address, a bad stack literal, then success, stack and
payload of the run.
-/

namespace WordMachine

namespace FixtureTransaction

def toTransaction (t : FixtureTransaction) : Transaction where
  recipient := t.recipient.getD Address.zero
  sender := t.sender.getD Address.zero
  origin := t.origin.getD Address.zero
  gasPrice := t.gasPrice.getD 0#256
  value := t.value.getD 0#256
  data := t.data.getD []

end FixtureTransaction

namespace FixtureBlock

def toBlock (b : FixtureBlock) : Block where
  number := b.number.getD Block.default.number
  timestamp := b.timestamp.getD Block.default.timestamp
  gasLimit := b.gasLimit.getD Block.default.gasLimit
  coinbase := b.coinbase.getD Block.default.coinbase
  difficulty := b.difficulty.getD Block.default.difficulty
  chainId := b.chainId.getD Block.default.chainId
  baseFee := b.baseFee.getD Block.default.baseFee

end FixtureBlock

namespace FixtureAccount

def toAccount (a : FixtureAccount) : Account where
  balance := a.balance.getD 0#256
  code := (a.code.bind (·.bytecode)).getD []

end FixtureAccount

namespace Fixture

def readAddress (key : String) : Except Trouble Address :=
  match Hex.decodePadded key with
  | .error error => .error (.addressNotHex error)
  | .ok bytes =>
    match Address.ofBytes? bytes with
    | some address => .ok address
    | none => .error (.addressLength key)

/-- Adds accounts one by one; of two texts for one address the later counts. -/
def addAccounts (w : World) : List (String × FixtureAccount) → Except Trouble World
  | [] => .ok w
  | (key, account) :: rest => do
    let address ← readAddress key
    addAccounts (w.insert address account.toAccount) rest

def world (f : Fixture) : Except Trouble World :=
  addAccounts World.empty (f.state.getD [])

def environment (f : Fixture) : Except Trouble Environment := do
  let world ← f.world
  return {
    transaction := (f.transaction.map (·.toTransaction)).getD Transaction.default
    block := (f.block.map (·.toBlock)).getD Block.default
    world }

/-- The expected stack as words. -/
def expectedStack (f : Fixture) : Except Trouble (Option (List Word)) :=
  match f.expectation.stack with
  | none => .ok none
  | some literals =>
    match Literal.readAll literals with
    | .ok words => .ok (some words)
    | .error error => .error (.literal error)

end Fixture

namespace Result

/-- The first difference between a result and what is expected of it. -/
def mismatch? (r : Result) (expectation : Expectation) (stack : Option (List Word)) :
    Option Mismatch :=
  let successMismatch := expectation.success.bind fun expected ↦
    if r.success = expected then none else some (.success expected r.success r.status)
  let stackMismatch := stack.bind fun expected ↦
    if r.stack = expected then none else some (.stack expected r.stack)
  let payloadMismatch := expectation.payload.bind fun expected ↦
    if r.payload = expected then none else some (.payload expected r.payload)
  successMismatch <|> stackMismatch <|> payloadMismatch

end Result

namespace Fixture

/-- Runs the program and compares.  Of a program that runs for ever nothing is
found out. -/
def check (f : Fixture) (limits : Limits) : Except Trouble Unit := do
  match f.code.bytecode with
  | none => .error .noBytecode
  | some bytecode =>
    let _ ← f.environment
    let stack ← f.expectedStack
    match (run bytecode.toArray limits).mismatch? f.expectation stack with
    | none => return ()
    | some mismatch => .error (.mismatch mismatch)

end Fixture

end WordMachine
