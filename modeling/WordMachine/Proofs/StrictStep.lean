import WordMachine.Proofs.OperationTable
import WordMachine.Proofs.Reachable
import WordMachine.Proofs.StrictAccess

/-!
# Strict steps

A step carried out with strict operators only: positions that have to be below
`2 ^ 64`, places that have to exist, operands that an operator has to have an
answer for.  `Agrees` says of a strict action, at one machine, that it comes to
something and that this is what the action comes to without.  A whole step agrees
at every execution that a program reaches, so that none of the operators is ever
asked for what it does not have.
-/

namespace WordMachine

namespace Strict

/-- A change of a machine that a fault may cut short, and that may come to
nothing. -/
abbrev Action := ExceptT Fault (StateT Machine Option)

section

variable {α β : Type} {m : Machine}

/-! ## Agreement -/

/-- What an action has come to, and the machine it has left. -/
def report : EStateM.Result Fault Machine α → Except Fault α × Machine
  | .ok a after => (.ok a, after)
  | .error fault after => (.error fault, after)

/-- At `m` the strict action comes to what the other one does. -/
def Agrees (x : Action α) (y : WordMachine.Action α) (m : Machine) : Prop :=
  x.run.run m = some (report (y.run m))

theorem agrees_pure (a : α) : Agrees (pure a) (pure a) m := rfl

theorem agrees_get : Agrees get get m := rfl

theorem agrees_modify {f g : Machine → Machine} (h : f m = g m) :
    Agrees (modify f) (modify g) m :=
  congrArg (fun after ↦ some (Except.ok PUnit.unit, after)) h

theorem agrees_settle (x : Except Fault α) :
    Agrees (liftM x) (WordMachine.Action.settle x) m := by
  cases x <;> rfl

namespace Agrees

/-- What comes next has to agree only where the first action leads. -/
theorem bind {x : Action α} {y : WordMachine.Action α} {f : α → Action β}
    {g : α → WordMachine.Action β} (h : Agrees x y m)
    (hnext : ∀ a after, y.run m = .ok a after → Agrees (f a) (g a) after) :
    Agrees (x >>= f) (y >>= g) m := by
  have hrun : (x >>= f).run.run m = x.run.run m >>= fun r ↦ ExceptT.bindCont f r.1 r.2 := rfl
  rw [Agrees, hrun, h]
  cases hy : y.run m with
  | ok a after =>
      have hg : (y >>= g).run m = (g a).run after := by simp [hy]
      rw [hg]
      exact hnext a after hy
  | error fault after =>
      have hg : (y >>= g).run m = .error fault after := by simp [hy]
      rw [hg]
      rfl

/-- A computation that comes to `a` may stand in front. -/
theorem compute {o : Option α} {a : α} {f : α → Action β} {y : WordMachine.Action β}
    (ho : o = some a) (h : Agrees (f a) y m) : Agrees (liftM o >>= f) y m := by
  subst ho
  exact h

/-- So may a look at the machine. -/
theorem look {f : Machine → Action β} {y : WordMachine.Action β} (h : Agrees (f m) y m) :
    Agrees (get >>= f) y m :=
  h

end Agrees

end

/-! ## Actions -/

namespace Action

def top (n : Nat) : Action (Vector Word n) := do
  let found ← Strict.top (← get).stack n
  found

def restack (f : Stack → Option (Except Fault Stack)) : Action Unit := do
  let changed ← f (← get).stack
  let s ← changed
  modify fun m ↦ { m with stack := s }

def push (w : Word) : Action Unit := restack fun s ↦ some (pushLast s w)

def drop (n : Nat) : Action Unit := restack (dropN · n)

def take (n : Nat) : Action (Vector Word n) := do
  let ws ← top n
  let s ← truncate (← get).stack n
  modify fun m ↦ { m with stack := s }
  return ws

def expand (offset length : Nat) : Action Unit := do
  let found ← reach (← get).memory offset length
  let size ← found
  modify fun m ↦ { m with memory := m.memory.growTo size }

def read (offset length : Nat) : Action (List UInt8) := do
  Memory.checkWidth length
  expand offset length
  window (← get).memory offset length

def write (offset : Nat) (bytes : List UInt8) (length : Nat) : Action Unit := do
  Memory.checkWidth length
  expand offset length
  let after ← overwrite (← get).memory offset bytes length
  modify fun m ↦ { m with memory := after }

def readRange (offset length : Nat) : Action (List UInt8) := do
  if length = 0 then return []
  expand offset length
  window (← get).memory offset length

def store (width : Nat) : Action Flow := do
  let ws ← top 2
  let offset ← (WordMachine.Action.first ws).toOffset
  let bytes ← toBytes (WordMachine.Action.second ws) width
  write offset bytes width
  drop 2
  return .next

def payload : Action (List UInt8) := do
  let ws ← top 2
  let offset ← (WordMachine.Action.first ws).toOffset
  let length ← (WordMachine.Action.second ws).toOffset
  let bytes ← readRange offset length
  drop 2
  return bytes

variable {m : Machine}

theorem agrees_top (n : Nat) : Agrees (top n) (WordMachine.Action.top n) m := by
  refine agrees_get.bind fun looked _ _ ↦ ?_
  exact .compute (top_eq _ _) (agrees_settle _)

theorem agrees_restack {f : Stack → Option (Except Fault Stack)} {g : Stack → Except Fault Stack}
    (h : ∀ s, f s = some (g s)) : Agrees (restack f) (WordMachine.Action.restack g) m := by
  refine agrees_get.bind fun looked _ _ ↦ .compute (h _) ?_
  exact (agrees_settle _).bind fun s _ _ ↦ agrees_modify rfl

theorem agrees_push (w : Word) : Agrees (push w) (WordMachine.Action.push w) m :=
  agrees_restack fun s ↦ congrArg some (pushLast_eq s w)

theorem agrees_drop (n : Nat) : Agrees (drop n) (WordMachine.Action.drop n) m :=
  agrees_restack (dropN_eq · n)

theorem le_depth_of_top {s : Stack} {n : Nat} {ws : Vector Word n} (h : s.top n = .ok ws) :
    n ≤ s.depth := by
  refine Nat.le_of_not_lt fun hshort ↦ ?_
  have hfound := top_eq s n
  rw [Strict.top, if_pos hshort, h] at hfound
  cases hfound

/-- Words that have been found on the stack can be cut off. -/
theorem agrees_take (n : Nat) : Agrees (take n) (WordMachine.Action.take n) m := by
  refine (agrees_top n).bind fun ws after hws ↦ .look ?_
  have henough : n ≤ after.stack.depth := by
    rw [WordMachine.Action.run_top] at hws
    obtain ⟨found, hfound, h⟩ := Fault.bind_eq_ok_iff.mp
      (WordMachine.Action.allOrNothing_eq_ok hws)
    cases h
    exact le_depth_of_top hfound
  refine .compute (truncate_eq henough) ?_
  exact (agrees_modify rfl).bind fun _ _ _ ↦ agrees_pure ws

theorem agrees_expand (offset length : Nat) :
    Agrees (expand offset length) (WordMachine.Action.expand offset length) m := by
  refine agrees_get.bind fun looked _ _ ↦ .compute (reach_eq _ _ _) ?_
  exact (agrees_settle _).bind fun size _ _ ↦ agrees_modify rfl

/-- Memory that has grown has the range, and positions in it can be had. -/
theorem range_of_expand {offset length : Nat} {after : Machine}
    (h : (WordMachine.Action.expand offset length).run m = .ok () after) :
    offset + length ≤ after.memory.size ∧ offset + length < Word.sizeBound := by
  rw [WordMachine.Action.run_expand] at h
  obtain ⟨size, hreach, h⟩ := Fault.bind_eq_ok_iff.mp (WordMachine.Action.allOrNothing_eq_ok h)
  cases h
  obtain ⟨hstop, hsize⟩ := Memory.reach_eq_ok_iff.mp hreach
  have hle := Memory.le_aligned (offset + length)
  rw [Memory.size_growTo]
  omega

theorem agrees_read (offset length : Nat) :
    Agrees (read offset length) (WordMachine.Action.read offset length) m := by
  refine (agrees_settle _).bind fun _ grown _ ↦ ?_
  refine (agrees_expand _ _).bind fun _ grown hgrown ↦ .look ?_
  obtain ⟨hinside, hstop⟩ := range_of_expand hgrown
  rw [window_eq hinside hstop]
  rfl

theorem agrees_write (offset : Nat) (bytes : List UInt8) (length : Nat) :
    Agrees (write offset bytes length) (WordMachine.Action.write offset bytes length) m := by
  refine (agrees_settle _).bind fun _ _ _ ↦ ?_
  refine (agrees_expand _ _).bind fun _ grown hgrown ↦ .look ?_
  obtain ⟨hinside, hstop⟩ := range_of_expand hgrown
  exact .compute (overwrite_eq bytes hinside hstop) (agrees_modify rfl)

theorem agrees_readRange (offset length : Nat) :
    Agrees (readRange offset length) (WordMachine.Action.readRange offset length) m := by
  by_cases hzero : length = 0
  · simp only [readRange, WordMachine.Action.readRange, hzero, if_true]
    exact agrees_pure []
  · simp only [readRange, WordMachine.Action.readRange, hzero, if_false]
    refine (agrees_expand _ _).bind fun _ grown hgrown ↦ .look ?_
    obtain ⟨hinside, hstop⟩ := range_of_expand hgrown
    rw [window_eq hinside hstop]
    rfl

theorem agrees_store (width : Nat) : Agrees (store width) (WordMachine.Action.store width) m := by
  refine (agrees_top 2).bind fun ws _ _ ↦ ?_
  refine (agrees_settle _).bind fun offset _ _ ↦ .compute (toBytes_eq _ _) ?_
  refine (agrees_write _ _ _).bind fun _ _ _ ↦ ?_
  exact (agrees_drop 2).bind fun _ _ _ ↦ agrees_pure _

theorem agrees_payload : Agrees payload WordMachine.Action.payload m := by
  refine (agrees_top 2).bind fun ws _ _ ↦ ?_
  refine (agrees_settle _).bind fun offset _ _ ↦ (agrees_settle _).bind fun length _ _ ↦ ?_
  refine (agrees_readRange _ _).bind fun bytes _ _ ↦ ?_
  exact (agrees_drop 2).bind fun _ _ _ ↦ agrees_pure _

end Action

/-! ## Operations -/

section

open WordMachine.Strict.Action
open WordMachine.Action (first second third)

def perform (op : Operation) : Action Flow :=
  match op with
  | .stop => return .stop
  | .unary op => do
    let ws ← take 1
    push (op.apply (first ws))
    return .next
  | .binary op => do
    let ws ← take 2
    let value ← binary op (first ws) (second ws)
    push value
    return .next
  | .ternary op => do
    let ws ← take 3
    let value ← ternary op (first ws) (second ws) (third ws)
    push value
    return .next
  | .pop => do
    restack fun s ↦ some do return (← s.pop).2
    return .next
  | .mload => do
    let ws ← Action.top 1
    let offset ← (first ws).toOffset
    let bytes ← read offset 32
    let decoded ← ofBytes bytes
    let value ← decoded
    drop 1
    push value
    return .next
  | .mstore => store 32
  | .mstore8 => store 1
  | .jump => do
    let ws ← Action.top 1
    let target ← (← get).jumpTarget (first ws)
    drop 1
    return .jump target
  | .jumpi => do
    let ws ← Action.top 2
    if second ws = 0#256 then
      drop 2
      return .next
    let target ← (← get).jumpTarget (first ws)
    drop 2
    return .jump target
  | .pc => do
    push (Word.ofSize (← get).pc)
    return .next
  | .msize => do
    push (Word.ofSize (← get).memory.size)
    return .next
  | .jumpdest => return .next
  | .push width => do
    let m ← get
    let decoded ← immediate m.code m.pc width
    let value ← decoded
    push value
    return .next
  | .dup position => do
    restack (dup · position)
    return .next
  | .swap distance => do
    restack (swap · distance)
    return .next
  | .ret => return .ret (← payload)
  | .revert => return .revert (← payload)

theorem agrees_perform (op : Operation) {m : Machine}
    (h : m.pc + op.immediateSize + 1 < Word.sizeBound) : Agrees (perform op) op.perform m := by
  cases op with
  | stop | jumpdest => exact agrees_pure _
  | unary op =>
      refine (agrees_take 1).bind fun ws _ _ ↦ ?_
      exact (agrees_push _).bind fun _ _ _ ↦ agrees_pure _
  | binary op =>
      refine (agrees_take 2).bind fun ws _ _ ↦ .compute (binary_eq op _ _) ?_
      exact (agrees_push _).bind fun _ _ _ ↦ agrees_pure _
  | ternary op =>
      refine (agrees_take 3).bind fun ws _ _ ↦ .compute (ternary_eq op _ _ _) ?_
      exact (agrees_push _).bind fun _ _ _ ↦ agrees_pure _
  | pop => exact (agrees_restack fun _ ↦ rfl).bind fun _ _ _ ↦ agrees_pure _
  | mload =>
      refine (agrees_top 1).bind fun ws _ _ ↦ (agrees_settle _).bind fun offset _ _ ↦ ?_
      refine (agrees_read _ _).bind fun bytes _ _ ↦ .compute (ofBytes_eq _) ?_
      refine (agrees_settle _).bind fun value _ _ ↦ (agrees_drop 1).bind fun _ _ _ ↦ ?_
      exact (agrees_push _).bind fun _ _ _ ↦ agrees_pure _
  | mstore => exact agrees_store 32
  | mstore8 => exact agrees_store 1
  | jump =>
      refine (agrees_top 1).bind fun ws _ _ ↦ agrees_get.bind fun looked _ _ ↦ ?_
      refine (agrees_settle _).bind fun target _ _ ↦ ?_
      exact (agrees_drop 1).bind fun _ _ _ ↦ agrees_pure _
  | jumpi =>
      refine (agrees_top 2).bind fun ws _ _ ↦ ?_
      by_cases hzero : second ws = 0#256
      · simp only [hzero, if_true]
        exact (agrees_drop 2).bind fun _ _ _ ↦ agrees_pure _
      · simp only [hzero, if_false]
        refine agrees_get.bind fun looked _ _ ↦ (agrees_settle _).bind fun target _ _ ↦ ?_
        exact (agrees_drop 2).bind fun _ _ _ ↦ agrees_pure _
  | pc | msize =>
      refine agrees_get.bind fun looked _ _ ↦ ?_
      exact (agrees_push _).bind fun _ _ _ ↦ agrees_pure _
  | push width =>
      -- Only here do positions come from the program counter, so it has to be that of `m`.
      refine agrees_get.bind fun looked _ hlooked ↦ ?_
      cases hlooked
      refine .compute (immediate_eq _ h) ?_
      refine (agrees_settle _).bind fun value _ _ ↦ ?_
      exact (agrees_push _).bind fun _ _ _ ↦ agrees_pure _
  | dup position => exact (agrees_restack (dup_eq · position)).bind fun _ _ _ ↦ agrees_pure _
  | swap distance => exact (agrees_restack (swap_eq · distance)).bind fun _ _ _ ↦ agrees_pure _
  | ret | revert => exact agrees_payload.bind fun _ _ _ ↦ agrees_pure _

end

/-! ## Steps -/

/-- An entry for every byte. -/
def table : List (Option Operation) :=
  (List.range 256).map fun n ↦ Operation.ofByte? (UInt8.ofNat n)

def follow (e : Execution) (op : Operation) (flow : Flow) : Option Execution :=
  match flow with
  | .next => do
    let width ← plus 1 op.immediateSize
    let pc ← plus e.machine.pc width
    return { e with machine := { e.machine with pc } }
  | flow => some (e.follow op flow)

def execute (e : Execution) (byte : UInt8) : Option Execution := do
  match ← table[byte.toNat]? with
  | none => return { e with status := .failed (.invalidOpcode byte) }
  | some op =>
    match ← (perform op).run.run e.machine with
    | (.ok flow, machine) => follow { e with machine } op flow
    | (.error fault, machine) => return { e with machine, status := .failed fault }

/-- Under a limit the steps have to be counted in 64 bits; a run without one may
go on for ever. -/
def count (e : Execution) : Option Execution :=
  if e.limits.steps = none ∨ e.steps + 1 < Execution.stepBound then
    some { e with steps := e.steps + 1 }
  else none

def step (e : Execution) : Option Execution :=
  if e.status.isTerminal then some e
  else
    match e.machine.currentByte? with
    | none => some { e with status := .halted }
    | some byte =>
      match e.exhausted? with
      | some limit => some { e with status := .failed (.stepLimitExceeded limit) }
      | none => do execute (← count e) byte

theorem getElem?_table (byte : UInt8) : table[byte.toNat]? = some (Operation.ofByte? byte) := by
  have hbyte : byte.toNat < 256 := byte.toNat_lt
  simp [table, hbyte]

variable {e : Execution} {op : Operation}

theorem follow_eq (flow : Flow) (h : e.machine.pc + op.immediateSize + 1 < Word.sizeBound) :
    follow e op flow = some (e.follow op flow) := by
  cases flow with
  | next =>
      have hwidth : plus 1 op.immediateSize = some (1 + op.immediateSize) := plus_of_lt (by omega)
      have hpc : plus e.machine.pc (1 + op.immediateSize) =
          some (e.machine.pc + 1 + op.immediateSize) := by
        rw [plus_of_lt (by omega), Nat.add_assoc]
      rw [follow, hwidth, Option.bind_eq_bind, Option.bind_some, hpc]
      rfl
  | jump | stop | ret | revert => rfl

/-- Behind the last position there is none. -/
example : (follow
    { Execution.start #[] .default with
      machine := ⟨#[], Word.sizeBound - 1, .empty, .withLimit 0⟩ }
    .jumpdest .next).isNone = true := by
  decide

theorem execute_eq {byte : UInt8} (hdepth : e.machine.stack.depth ≤ Stack.capacity)
    (hpc : e.machine.pc + 33 < Word.sizeBound) : execute e byte = some (e.execute byte) := by
  rw [execute, getElem?_table, Option.bind_eq_bind, Option.bind_some]
  cases hop : Operation.ofByte? byte with
  | none => rw [Execution.execute_of_invalid hop]; rfl
  | some op =>
      have hsize := Operation.immediateSize_le_of_encodable (Operation.encodable_of_ofByte? hop)
      have hperform : (perform op).run.run e.machine = some (report (op.perform.run e.machine)) :=
        agrees_perform op (by omega)
      rw [Execution.execute_of_effect hop hdepth]
      simp only [hperform, op.perform_eq_effect hdepth, Option.bind_eq_bind, Option.bind_some]
      cases heffect : op.effect e.machine with
      | error fault => rfl
      | ok result =>
          obtain ⟨flow, after⟩ := result
          have hafter : after.pc = e.machine.pc := Operation.pc_of_effect heffect
          exact follow_eq flow (by simp only [hafter]; omega)

theorem count_eq (h : ∀ n, e.limits.steps = some n → e.steps + 1 < Execution.stepBound) :
    count e = some { e with steps := e.steps + 1 } := by
  refine if_pos ?_
  cases hsteps : e.limits.steps with
  | none => exact .inl rfl
  | some n => exact .inr (h n hsteps)

/-- The code is short enough for the positions in it and behind it, and the limit
small enough for the steps below it. -/
theorem step_eq {code : Code} {limits : Limits} (hsound : e.Sound code limits)
    (hcode : code.size ≤ Memory.blockBound)
    (hlimit : ∀ n, limits.steps = some n → n < Execution.stepBound) :
    step e = some e.step := by
  by_cases hterminal : e.status.isTerminal = true
  · rw [step, if_pos hterminal, Execution.step, if_pos hterminal]
  · rw [step, if_neg hterminal, Execution.step, if_neg hterminal]
    cases hbyte : e.machine.currentByte? with
    | none => rfl
    | some byte =>
        cases hexhausted : e.exhausted? with
        | some limit => rfl
        | none =>
            have hinside := Execution.pc_lt_of_currentByte? hbyte
            have hpc : e.machine.pc + 33 < Word.sizeBound := by
              have hbound : Memory.blockBound + 33 < Word.sizeBound := by decide
              rw [hsound.code_eq] at hinside
              omega
            have hcount := count_eq (e := e) fun n hn ↦
              Nat.lt_of_le_of_lt (hsound.succ_steps_le hexhausted n (hsound.limits_eq ▸ hn))
                (hlimit n (hsound.limits_eq ▸ hn))
            simp only [hcount, Option.bind_eq_bind, Option.bind_some]
            exact execute_eq hsound.depth_le hpc

end Strict

namespace Execution

/-- Wherever a program leads, the next step is in range throughout: with strict
operators it comes to the same. -/
theorem step_in_range (code : Code) (limits : Limits) (k : Nat)
    (hcode : code.size ≤ Memory.blockBound)
    (hlimit : ∀ n, limits.steps = some n → n < stepBound) :
    Strict.step (stepN k (start code limits)) = some (stepN (k + 1) (start code limits)) := by
  rw [stepN_succ]
  exact Strict.step_eq (Sound.stepN code limits k) hcode hlimit

/-- The load, under the largest limit there can be. -/
theorem step_in_range_storeThenLoad :
    Strict.step (stepN 4 (start storeThenLoad ⟨some (stepBound - 1), 96⟩)) =
      some (stepN 5 (start storeThenLoad ⟨some (stepBound - 1), 96⟩)) := by
  refine step_in_range storeThenLoad ⟨some (stepBound - 1), 96⟩ 4 (by decide) ?_
  rintro n ⟨⟩
  decide

end Execution

end WordMachine
