import WordMachine.Action
import WordMachine.Word.Rendering

/-!
# Execution

A machine is run step by step until it halts, faults, or has used up its step
limit.  A fault ends the run with the machine as the faulting operation left
it.  At the end of the code the machine halts without a further step, and that
is seen before the step limit is.  Without a step limit a program may run for
ever, and then there is no result.
-/

namespace WordMachine

structure Limits where
  /-- Without a limit a run may go on for ever. -/
  steps : Option Nat
  memory : Nat
deriving DecidableEq, Repr

namespace Limits

def default : Limits := ⟨some 1000000, Memory.defaultLimit⟩

def unlimited : Limits := { default with steps := none }

end Limits

inductive Status where
  | running
  | halted
  | reverted
  | failed (fault : Fault)
deriving DecidableEq, Repr

namespace Status

def isTerminal (status : Status) : Bool := status != .running

def isSuccess (status : Status) : Bool := status == .halted

def describe : Status → String
  | running => "running"
  | halted => "success"
  | reverted => "revert"
  | failed fault => "failed: " ++ fault.message

end Status

structure Execution where
  machine : Machine
  limits : Limits
  status : Status
  /-- Instructions begun, a faulting one included. -/
  steps : Nat
  /-- What a halting instruction handed out. -/
  payload : List UInt8

/-- What can be seen of an execution from outside. -/
structure Result where
  status : Status
  stack : List Word
  payload : List UInt8
  steps : Nat
deriving DecidableEq, Repr

namespace Result

def success (r : Result) : Bool := r.status.isSuccess

def stackHex (r : Result) : List String := r.stack.map Word.hex

def payloadHex (r : Result) : String := "0x" ++ Hex.encode r.payload

end Result

namespace Execution

def start (code : Code) (limits : Limits) : Execution :=
  ⟨Machine.start code limits.memory, limits, .running, 0, []⟩

/-- The limit, if the steps made so far have used it up. -/
def exhausted? (e : Execution) : Option Nat :=
  match e.limits.steps with
  | some limit => if limit ≤ e.steps then some limit else none
  | none => none

/-- Goes where the operation `op`, which has been carried out, sends control. -/
def follow (e : Execution) (op : Operation) (flow : Flow) : Execution :=
  match flow with
  | .next =>
    { e with machine := { e.machine with pc := e.machine.pc + 1 + op.immediateSize } }
  | .jump target => { e with machine := { e.machine with pc := target } }
  | .stop => { e with status := .halted }
  | .ret payload => { e with status := .halted, payload }
  | .revert payload => { e with status := .reverted, payload }

def execute (e : Execution) (byte : UInt8) : Execution :=
  match Operation.ofByte? byte with
  | none => { e with status := .failed (.invalidOpcode byte) }
  | some op =>
    -- Taken apart first, the execution does not hold on to the memory that changes.
    let ⟨machine, limits, status, steps, payload⟩ := e
    match op.perform.run machine with
    | .ok flow machine => follow ⟨machine, limits, status, steps, payload⟩ op flow
    | .error fault machine => ⟨machine, limits, .failed fault, steps, payload⟩

def step (e : Execution) : Execution :=
  if e.status.isTerminal then e
  else
    match e.machine.currentByte? with
    | none => { e with status := .halted }
    | some byte =>
      match e.exhausted? with
      | some limit => { e with status := .failed (.stepLimitExceeded limit) }
      | none => execute { e with steps := e.steps + 1 } byte

/-- Makes `n` steps; those after the end change nothing. -/
def stepN : Nat → Execution → Execution
  | 0, e => e
  | n + 1, e => stepN n e.step

/-- Makes steps until the end, but at most `n`. -/
def runFor : Nat → Execution → Execution
  | 0, e => e
  | n + 1, e => if e.status.isTerminal then e else runFor n e.step

/-- Steps are counted in 64 bits. -/
def stepBound : Nat := Nat.pow 2 64

/-- Under a limit, enough steps to come to the end: one more than are allowed, so
that the last can find the limit used up.  Without a limit, enough for every run
that ends while its steps can be counted. -/
def budget (e : Execution) : Nat :=
  e.limits.steps.getD stepBound + 1 - e.steps

/-- Makes the steps of the budget.  What comes out means something only where the
run ends.  A run that never does is left where it stands, still running, and that
is the outcome of nothing. -/
def run (e : Execution) : Execution := e.runFor e.budget

def result (e : Execution) : Result :=
  ⟨e.status, e.machine.stack.words, e.payload, e.steps⟩

end Execution

/-- The result, if the run ends. -/
def run (code : Code) (limits : Limits) : Result :=
  (Execution.start code limits).run.result

end WordMachine
