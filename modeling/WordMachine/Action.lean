import WordMachine.Machine

/-!
# Actions

An operation changes a machine in place, one part after another.  A fault stops
it where it stands and leaves the machine as it is by then: words taken off the
stack stay off, and memory that has grown stays grown.  Operations that touch
more than the stack therefore look at their operands first and take them off
when they have what they need.
-/

namespace WordMachine

/-- Where control goes after an operation. -/
inductive Flow where
  | next
  | jump (target : Nat)
  | stop
  | ret (payload : List UInt8)
  | revert (payload : List UInt8)
deriving DecidableEq, Repr

/-- A change of a machine that a fault may cut short. -/
abbrev Action := EStateM Fault Machine

namespace Action

/-- A fault that is found without a change. -/
def settle {α : Type} (x : Except Fault α) : Action α :=
  match x with
  | .ok a => pure a
  | .error fault => throw fault

instance : MonadLift (Except Fault) Action := ⟨settle⟩

/-! ## The stack -/

def first {n : Nat} (ws : Vector Word (n + 1)) : Word := ws.get ⟨0, Nat.le_add_left 1 n⟩

def second {n : Nat} (ws : Vector Word (n + 2)) : Word := ws.get ⟨1, Nat.le_add_left 2 n⟩

def third {n : Nat} (ws : Vector Word (n + 3)) : Word := ws.get ⟨2, Nat.le_add_left 3 n⟩

@[simp] theorem first_mk {n : Nat} (a : Word) (ws : List Word)
    (h : (a :: ws).toArray.size = n + 1) : first ⟨(a :: ws).toArray, h⟩ = a := rfl

@[simp] theorem second_mk {n : Nat} (a b : Word) (ws : List Word)
    (h : (a :: b :: ws).toArray.size = n + 2) : second ⟨(a :: b :: ws).toArray, h⟩ = b := rfl

@[simp] theorem third_mk {n : Nat} (a b c : Word) (ws : List Word)
    (h : (a :: b :: c :: ws).toArray.size = n + 3) :
    third ⟨(a :: b :: c :: ws).toArray, h⟩ = c := rfl

/-- The first `n` words, which stay where they are. -/
def top (n : Nat) : Action (Vector Word n) := do
  (← get).stack.top n

def restack (f : Stack → Except Fault Stack) : Action Unit := do
  let s ← f (← get).stack
  modify fun m ↦ { m with stack := s }

def push (w : Word) : Action Unit := restack (·.push w)

def drop (n : Nat) : Action Unit := restack (·.dropN n)

def take (n : Nat) : Action (Vector Word n) := do
  let ws ← top n
  modify fun m ↦ { m with stack := ⟨m.stack.words.drop n⟩ }
  return ws

/-! ## Memory -/

/-- Lets memory grow so far that it has the range. -/
def expand (offset length : Nat) : Action Unit := do
  let size ← (← get).memory.reach offset length
  modify fun m ↦ { m with memory := m.memory.growTo size }

def read (offset length : Nat) : Action (List UInt8) := do
  Memory.checkWidth length
  expand offset length
  return (← get).memory.window offset length

def write (offset : Nat) (bytes : List UInt8) (length : Nat) : Action Unit := do
  Memory.checkWidth length
  expand offset length
  modify fun m ↦ { m with memory := m.memory.overwrite offset (Memory.fit length bytes) }

/-- An empty range lies nowhere, so that nothing grows. -/
def readRange (offset length : Nat) : Action (List UInt8) := do
  if length = 0 then return []
  expand offset length
  return (← get).memory.window offset length

/-! ## What several operations have in common -/

/-- Stores the last `width` bytes of the second word at the offset on top. -/
def store (width : Nat) : Action Flow := do
  let ws ← top 2
  let offset ← (first ws).toOffset
  write offset ((second ws).toBytes width) width
  drop 2
  return .next

/-- Takes a payload out of memory: its offset is on top, its length below. -/
def payload : Action (List UInt8) := do
  let ws ← top 2
  let offset ← (first ws).toOffset
  let length ← (second ws).toOffset
  let bytes ← readRange offset length
  drop 2
  return bytes

end Action

namespace Operation

open WordMachine.Action hiding push

def perform (op : Operation) : Action Flow :=
  match op with
  | stop => return .stop
  | unary op => do
    let ws ← take 1
    Action.push (op.apply (first ws))
    return .next
  | binary op => do
    let ws ← take 2
    Action.push (op.apply (first ws) (second ws))
    return .next
  | ternary op => do
    let ws ← take 3
    Action.push (op.apply (first ws) (second ws) (third ws))
    return .next
  | pop => do
    restack fun s ↦ return (← s.pop).2
    return .next
  | mload => do
    let ws ← top 1
    let offset ← (first ws).toOffset
    let bytes ← read offset 32
    let value ← Word.ofBytes bytes
    drop 1
    Action.push value
    return .next
  | mstore => store 32
  | mstore8 => store 1
  | jump => do
    let ws ← top 1
    let target ← (← get).jumpTarget (first ws)
    drop 1
    return .jump target
  | jumpi => do
    let ws ← top 2
    if second ws = 0#256 then
      drop 2
      return .next
    let target ← (← get).jumpTarget (first ws)
    drop 2
    return .jump target
  | pc => do
    Action.push (Word.ofSize (← get).pc)
    return .next
  | msize => do
    Action.push (Word.ofSize (← get).memory.size)
    return .next
  | jumpdest => return .next
  | push width => do
    let value ← (← get).immediate width
    Action.push value
    return .next
  | dup position => do
    restack (·.dup position)
    return .next
  | swap distance => do
    restack (·.swap distance)
    return .next
  | ret => return .ret (← payload)
  | revert => return .revert (← payload)

end Operation

end WordMachine
