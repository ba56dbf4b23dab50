import WordMachine.Execution
import WordMachine.Proofs.InPlace

/-!
# Transitions

The five things that a step can do to a running execution.  An operation that
is carried out in place comes to its effect only while the stack is within its
capacity, so the relation and the function agree on such executions; that every
run keeps to them is shown by induction, together with whatever else it keeps.
-/

namespace WordMachine

namespace Machine

/-- The operation to be executed next, if there is a byte and it encodes one. -/
def currentOperation? (m : Machine) : Option Operation :=
  m.currentByte?.bind Operation.ofByte?

theorem currentOperation?_eq_some {m : Machine} {byte : UInt8} {op : Operation}
    (hbyte : m.currentByte? = some byte) (hop : Operation.ofByte? byte = some op) :
    m.currentOperation? = some op := by
  rw [currentOperation?, hbyte]
  exact hop

/-- The instruction to be executed next is a jump that will be taken, if it does
not fault. -/
def jumps (m : Machine) : Bool :=
  match m.currentOperation? with
  | some op => op.branches m.stack.words
  | none => false

theorem jumps_eq_branches {m : Machine} {op : Operation} (hop : m.currentOperation? = some op) :
    m.jumps = op.branches m.stack.words := by
  rw [jumps, hop]

end Machine

namespace Execution

inductive Transition (e : Execution) : Execution → Prop where
  | ended (hend : e.machine.currentByte? = none) :
      Transition e { e with status := .halted }
  | exhausted {byte : UInt8} {limit : Nat} (hbyte : e.machine.currentByte? = some byte)
      (hlimit : e.exhausted? = some limit) :
      Transition e { e with status := .failed (.stepLimitExceeded limit) }
  | invalid {byte : UInt8} (hbyte : e.machine.currentByte? = some byte)
      (hlimit : e.exhausted? = none) (hop : Operation.ofByte? byte = none) :
      Transition e { e with status := .failed (.invalidOpcode byte), steps := e.steps + 1 }
  | faulted {byte : UInt8} {op : Operation} {fault : Fault}
      (hbyte : e.machine.currentByte? = some byte) (hlimit : e.exhausted? = none)
      (hop : Operation.ofByte? byte = some op) (heffect : op.effect e.machine = .error fault) :
      Transition e { e with status := .failed fault, steps := e.steps + 1 }
  | performed {byte : UInt8} {op : Operation} {flow : Flow} {after : Machine}
      (hbyte : e.machine.currentByte? = some byte) (hlimit : e.exhausted? = none)
      (hop : Operation.ofByte? byte = some op)
      (heffect : op.effect e.machine = .ok (flow, after)) :
      Transition e (follow { e with machine := after, steps := e.steps + 1 } op flow)

variable {e next : Execution}

section follow

variable (e : Execution) (op : Operation) (flow : Flow)

@[simp] theorem code_follow : (follow e op flow).machine.code = e.machine.code := by
  cases flow <;> rfl

@[simp] theorem stack_follow : (follow e op flow).machine.stack = e.machine.stack := by
  cases flow <;> rfl

@[simp] theorem memory_follow : (follow e op flow).machine.memory = e.machine.memory := by
  cases flow <;> rfl

@[simp] theorem limits_follow : (follow e op flow).limits = e.limits := by
  cases flow <;> rfl

@[simp] theorem steps_follow : (follow e op flow).steps = e.steps := by
  cases flow <;> rfl

end follow

theorem step_of_isTerminal (h : e.status.isTerminal = true) : e.step = e :=
  if_pos h

theorem isTerminal_iff {status : Status} : status.isTerminal = true ↔ status ≠ .running := by
  simp [Status.isTerminal]

theorem step_of_running (h : e.status = .running) :
    e.step = match e.machine.currentByte? with
      | none => { e with status := .halted }
      | some byte =>
        match e.exhausted? with
        | some limit => { e with status := .failed (.stepLimitExceeded limit) }
        | none => execute { e with steps := e.steps + 1 } byte := by
  have hnot : ¬e.status.isTerminal = true := by simp [isTerminal_iff, h]
  exact if_neg hnot

theorem execute_of_invalid {byte : UInt8} (h : Operation.ofByte? byte = none) :
    e.execute byte = { e with status := .failed (.invalidOpcode byte) } := by
  simp only [execute, h]

theorem execute_of_effect {byte : UInt8} {op : Operation} (h : Operation.ofByte? byte = some op)
    (hdepth : e.machine.stack.depth ≤ Stack.capacity) :
    e.execute byte = match op.effect e.machine with
      | .ok (flow, after) => follow { e with machine := after } op flow
      | .error fault => { e with status := .failed fault } := by
  simp only [execute, h, op.perform_eq_effect hdepth]
  cases op.effect e.machine <;> rfl

/-- A running execution steps as the relation says. -/
theorem transition_step (hrun : e.status = .running)
    (hdepth : e.machine.stack.depth ≤ Stack.capacity) : Transition e e.step := by
  rw [step_of_running hrun]
  cases hbyte : e.machine.currentByte? with
  | none => exact .ended hbyte
  | some byte =>
      cases hlimit : e.exhausted? with
      | some limit => exact .exhausted hbyte hlimit
      | none =>
          cases hop : Operation.ofByte? byte with
          | none =>
              simp only [execute_of_invalid hop]
              exact .invalid hbyte hlimit hop
          | some op =>
              simp only [execute_of_effect (e := { e with steps := e.steps + 1 }) hop hdepth]
              cases heffect : op.effect e.machine with
              | error fault => exact .faulted hbyte hlimit hop heffect
              | ok pair => exact .performed hbyte hlimit hop heffect

/-- The relation leaves no choice. -/
theorem Transition.step_eq (h : Transition e next) (hrun : e.status = .running)
    (hdepth : e.machine.stack.depth ≤ Stack.capacity) : e.step = next := by
  rw [step_of_running hrun]
  cases h with
  | ended hend => simp only [hend]
  | exhausted hbyte hlimit => simp only [hbyte, hlimit]
  | invalid hbyte hlimit hop => simp only [hbyte, hlimit, execute_of_invalid hop]
  | faulted hbyte hlimit hop heffect =>
      simp only [hbyte, hlimit,
        execute_of_effect (e := { e with steps := e.steps + 1 }) hop hdepth, heffect]
  | performed hbyte hlimit hop heffect =>
      simp only [hbyte, hlimit,
        execute_of_effect (e := { e with steps := e.steps + 1 }) hop hdepth, heffect]

/-- An instruction that the limit lets begin either faults as it stands or has
its effect. -/
theorem Transition.effect_cases {op : Operation} (h : Transition e next)
    (hop : e.machine.currentOperation? = some op)
    (hlimit : ∀ limit, next.status ≠ .failed (.stepLimitExceeded limit)) :
    (∃ fault, op.effect e.machine = .error fault ∧
        next = { e with status := .failed fault, steps := e.steps + 1 }) ∨
      ∃ flow after, op.effect e.machine = .ok (flow, after) ∧
        next = follow { e with machine := after, steps := e.steps + 1 } op flow := by
  cases h with
  | ended hend =>
      rw [Machine.currentOperation?, hend] at hop
      cases hop
  | exhausted => exact absurd rfl (hlimit _)
  | invalid hbyte _ hnone =>
      rw [Machine.currentOperation?, hbyte] at hop
      cases hnone.symm.trans hop
  | faulted hbyte _ hsome heffect =>
      cases (Machine.currentOperation?_eq_some hbyte hsome).symm.trans hop
      exact .inl ⟨_, heffect, rfl⟩
  | performed hbyte _ hsome heffect =>
      cases (Machine.currentOperation?_eq_some hbyte hsome).symm.trans hop
      exact .inr ⟨_, _, heffect, rfl⟩

theorem Transition.depth_le (h : Transition e next)
    (hdepth : e.machine.stack.depth ≤ Stack.capacity) :
    next.machine.stack.depth ≤ Stack.capacity := by
  cases h with
  | ended | exhausted | invalid | faulted => exact hdepth
  | performed hbyte hlimit hop heffect =>
      obtain ⟨o, below, -, hfits, -, rfl⟩ := Operation.effect_regular heffect
      rw [stack_follow]
      exact hfits

/-! ## Runs -/

theorem stepN_succ (k : Nat) (e : Execution) : stepN (k + 1) e = (stepN k e).step := by
  induction k generalizing e with
  | zero => rfl
  | succ k ih => exact ih e.step

theorem stepN_add (j k : Nat) (e : Execution) : stepN (j + k) e = stepN k (stepN j e) := by
  induction k with
  | zero => rfl
  | succ k ih => rw [Nat.add_succ, stepN_succ, stepN_succ, ih]

theorem stepN_of_isTerminal (h : e.status.isTerminal = true) (k : Nat) : stepN k e = e := by
  induction k with
  | zero => rfl
  | succ k ih => rw [stepN_succ, ih, step_of_isTerminal h]

/-- Once a run has ended it does not change. -/
theorem stepN_eq_of_le {j k : Nat} (h : (stepN j e).status.isTerminal = true) (hjk : j ≤ k) :
    stepN k e = stepN j e := by
  rw [← Nat.add_sub_cancel' hjk, stepN_add, stepN_of_isTerminal h]

theorem running_of_le {j k : Nat} (h : (stepN k e).status = .running) (hjk : j ≤ k) :
    (stepN j e).status = .running := by
  refine Decidable.byContradiction fun hne ↦ ?_
  rw [stepN_eq_of_le (isTerminal_iff.mpr hne) hjk] at h
  exact hne h

/-- A change that every step of a run commutes with can be made before the run
or after it. -/
theorem stepN_commute {f : Execution → Execution} (hstatus : ∀ e, (f e).status = e.status)
    {n : Nat} (hstep : ∀ k < n, (stepN k e).status = .running →
      (f (stepN k e)).step = f (stepN (k + 1) e)) {k : Nat} (hk : k ≤ n) :
    stepN k (f e) = f (stepN k e) := by
  induction k with
  | zero => rfl
  | succ k ih =>
      rw [stepN_succ, ih (Nat.le_of_succ_le hk)]
      by_cases hrun : (stepN k e).status = .running
      · exact hstep k hk hrun
      · have hterminal := isTerminal_iff.mpr hrun
        rw [stepN_succ, step_of_isTerminal hterminal]
        rw [← hstatus] at hterminal
        exact step_of_isTerminal hterminal

/-- Stopping early makes no difference. -/
theorem runFor_eq_stepN (k : Nat) (e : Execution) : e.runFor k = stepN k e := by
  induction k generalizing e with
  | zero => rfl
  | succ k ih =>
      rw [runFor]
      split
      · next hterminal => exact (stepN_of_isTerminal hterminal _).symm
      · exact ih e.step

/-- What holds at the beginning, and is kept by every transition, holds
throughout a run that begins within the capacity of the stack. -/
theorem stepN_induction {motive : Execution → Prop}
    (hdepth : e.machine.stack.depth ≤ Stack.capacity) (hbegin : motive e)
    (hstep : ∀ {e next : Execution}, e.status = .running → Transition e next → motive e →
      motive next) (k : Nat) : motive (stepN k e) := by
  -- The capacity is carried along, since the transitions depend on it.
  have hboth : (stepN k e).machine.stack.depth ≤ Stack.capacity ∧ motive (stepN k e) := by
    induction k with
    | zero => exact ⟨hdepth, hbegin⟩
    | succ k ih =>
        obtain ⟨hdepth, hmotive⟩ := ih
        rw [stepN_succ]
        by_cases hrun : (stepN k e).status = .running
        · have htransition := transition_step hrun hdepth
          exact ⟨htransition.depth_le hdepth, hstep hrun htransition hmotive⟩
        · rw [step_of_isTerminal (isTerminal_iff.mpr hrun)]
          exact ⟨hdepth, hmotive⟩
  exact hboth.2

theorem depth_stepN_start (code : Code) (limits : Limits) (k : Nat) :
    (stepN k (start code limits)).machine.stack.depth ≤ Stack.capacity :=
  stepN_induction (Nat.zero_le _) (Nat.zero_le _) (fun _ htransition ↦ htransition.depth_le) k

/-- A run that has not ended makes a transition. -/
theorem transition_stepN {code : Code} {limits : Limits} {k : Nat}
    (hrun : (stepN k (start code limits)).status = .running) :
    Transition (stepN k (start code limits)) (stepN k (start code limits)).step :=
  transition_step hrun (depth_stepN_start code limits k)

/-- What every transition relates is related, if it can be chained, between an
earlier and a later moment of a run. -/
theorem stepN_rel {r : Execution → Execution → Prop} (hrefl : ∀ e, r e e)
    (htrans : ∀ {e₁ e₂ e₃ : Execution}, r e₁ e₂ → r e₂ e₃ → r e₁ e₃)
    (hstep : ∀ {e next : Execution}, Transition e next → r e next)
    (code : Code) (limits : Limits) {j k : Nat} (hjk : j ≤ k) :
    r (stepN j (start code limits)) (stepN k (start code limits)) := by
  obtain ⟨d, rfl⟩ := Nat.exists_eq_add_of_le hjk
  rw [stepN_add]
  exact stepN_induction (motive := r _) (depth_stepN_start code limits j) (hrefl _)
    (fun _ htransition hrel ↦ htrans hrel (hstep htransition)) d

end Execution

end WordMachine
