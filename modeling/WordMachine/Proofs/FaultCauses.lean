import WordMachine.Proofs.OperationTable

/-!
# Causes of faults

A fault leaves the machine as the instruction found it, so the cause can still be
seen: the byte at fault, the operands on the stack, the size of the code.  Three
faults have no cause and never end a run.  The bytes of an immediate, and those
that are loaded from memory, are at most as many as a word has; and memory is
accessed in units only.
-/

namespace WordMachine

namespace Execution

variable {code : Code} {limits : Limits} {e next : Execution}

/-- What there is to be seen in an execution that the fault has ended.  A
destination that is no 64-bit number is out of bounds whatever the size of the
code, which is therefore taken to be one. -/
def Cause (e : Execution) : Fault → Prop
  | .stackOverflow => e.machine.stack.depth = Stack.capacity ∧
      ∃ op, e.machine.currentOperation? = some op ∧ op.Deepens e.machine
  | .stackUnderflow =>
      ∃ op, e.machine.currentOperation? = some op ∧ e.machine.stack.depth < op.inputs
  | .stackValueTooBig => False
  | .stackValueTooSmall => False
  | .invalidOpcode byte => e.machine.currentByte? = some byte ∧ Operation.ofByte? byte = none
  | .pcOutOfBounds position =>
      ∃ width, e.machine.currentOperation? = some (.push width) ∧
        position = e.machine.pc + width ∧ e.machine.code.size ≤ position
  | .jumpOutOfBounds destination => e.machine.jumps = true ∧
      e.machine.stack.words.head? = some destination ∧
        (e.machine.code.size < Word.sizeBound → e.machine.code.size < destination.toNat)
  | .jumpToInvalidDestination target => e.machine.jumps = true ∧
      (∃ destination, e.machine.stack.words.head? = some destination ∧
        destination.toNat = target) ∧
        target ≤ e.machine.code.size ∧ e.machine.code[target]? ≠ some Operation.jumpdestByte
  | .invalidMemoryOffset =>
      ∃ op, e.machine.currentOperation? = some op ∧ op.accessesMemory = true
  | .invalidMemoryValueSize _ => False
  | .stepLimitExceeded limit => e.limits.steps = some limit ∧ e.steps = limit

/-- A jump that goes to no marked position is told by the word on top. -/
theorem cause_of_jumpTarget {destination : Word} {below : List Word} {fault : Fault}
    (hjumps : e.machine.jumps = true) (hwords : e.machine.stack.words = destination :: below)
    (h : e.machine.jumpTarget destination = .error fault) : Cause e fault := by
  have htop : e.machine.stack.words.head? = some destination := by rw [hwords]; rfl
  rcases Code.jumpTarget_eq_error h with ⟨rfl, hbeyond⟩ | ⟨rfl, hinside, hunmarked⟩
  · refine ⟨hjumps, htop, fun hsize ↦ ?_⟩
    rcases hbeyond with hbeyond | hbeyond
    · exact hbeyond
    · exact Nat.lt_of_lt_of_le hsize hbeyond
  · exact ⟨hjumps, ⟨destination, htop, rfl⟩, hinside, hunmarked⟩

theorem cause_of_refusal {op : Operation} {operands below : List Word} {fault : Fault}
    (hop : e.machine.currentOperation? = some op)
    (hwords : e.machine.stack.words = operands ++ below)
    (h : op.Refusal e.machine operands fault) : Cause e fault := by
  have hencodable : op.encodable = true := Operation.encodable_of_currentOperation? hop
  cases h with
  | access haccess => exact ⟨op, hop, haccess⟩
  | jump htarget => exact cause_of_jumpTarget (Machine.jumps_eq_branches hop) hwords htarget
  | branch hcondition htarget =>
      have hjumps : e.machine.jumps = true := by
        rw [Machine.jumps_eq_branches hop, hwords]
        simpa [Operation.branches] using hcondition
      exact cause_of_jumpTarget hjumps hwords htarget
  | @immediate width _ hvalue =>
      rcases Code.immediate_eq_error hvalue with ⟨rfl, hcut⟩ | ⟨-, hwide⟩
      · exact ⟨width, hop, rfl, hcut⟩
      · -- No byte encodes an immediate that is wider than a word.
        have hle := Operation.immediateSize_le_of_encodable hencodable
        exact absurd hwide (Nat.not_lt_of_le hle)
  | dup_zero | swap_zero => cases hencodable

theorem cause_of_effect {op : Operation} {fault : Fault}
    (hop : e.machine.currentOperation? = some op)
    (hdepth : e.machine.stack.depth ≤ Stack.capacity)
    (h : op.effect e.machine = .error fault) : Cause e fault := by
  rcases Operation.effect_eq_error h with
    ⟨hshort, rfl⟩ | ⟨operands, below, hwords, hlength, houtcome | ⟨rfl, -⟩⟩
  · exact ⟨op, hop, hshort⟩
  · exact cause_of_refusal hop hwords (Operation.outcome_eq_error hlength houtcome)
  · have hencodable := Operation.encodable_of_currentOperation? hop
    obtain ⟨hfull, hdeepens⟩ := (Operation.effect_overflow_iff hencodable hdepth).mp h
    exact ⟨hfull, op, hop, hdeepens⟩

theorem Transition.cause (h : Transition e next) (hrun : e.status = .running)
    (hsound : Sound code limits e) {fault : Fault} (hfailed : next.status = .failed fault) :
    Cause next fault := by
  have hnext : Sound code limits next := hsound.transition hrun h
  cases h with
  | ended => cases hfailed
  | exhausted =>
      obtain ⟨hlimit, hsteps⟩ := hnext.cut_off _ rfl
      cases hfailed
      exact ⟨hnext.limits_eq ▸ hlimit, hsteps⟩
  | invalid hbyte _ hop =>
      cases hfailed
      exact ⟨hbyte, hop⟩
  | faulted hbyte _ hop heffect =>
      cases hfailed
      exact cause_of_effect (Machine.currentOperation?_eq_some hbyte hop) hsound.depth_le heffect
  | performed => exact absurd hfailed (follow_not_failed hrun)

/-- Every fault that ends a run has its cause in the state in which it is found. -/
theorem fault_has_cause (code : Code) (limits : Limits) (k : Nat) (fault : Fault)
    (h : (stepN k (start code limits)).status = .failed fault) :
    Cause (stepN k (start code limits)) fault := by
  induction k with
  | zero => cases h
  | succ k ih =>
      rw [stepN_succ] at h ⊢
      by_cases hrun : (stepN k (start code limits)).status = .running
      · exact (transition_stepN hrun).cause hrun (Sound.stepN code limits k) h
      · rw [step_of_isTerminal (isTerminal_iff.mpr hrun)] at h ⊢
        exact ih h

/-- Takes a conditional jump to the byte behind its last. -/
def jumpToEnd : Code := #[0x60, 0x01, 0x60, 0x05, 0x57]

theorem fault_has_cause_jumpToEnd :
    (stepN 3 (start jumpToEnd ⟨none, 0⟩)).status = .failed (.jumpToInvalidDestination 5) ∧
      Cause (stepN 3 (start jumpToEnd ⟨none, 0⟩)) (.jumpToInvalidDestination 5) ∧
      (stepN 5 (start storeThenLoad ⟨none, 64⟩)).status = .failed .invalidMemoryOffset ∧
      Cause (stepN 5 (start storeThenLoad ⟨none, 64⟩)) .invalidMemoryOffset := by
  have hjump : (stepN 3 (start jumpToEnd ⟨none, 0⟩)).status =
      .failed (.jumpToInvalidDestination 5) := by decide +kernel
  have hload : (stepN 5 (start storeThenLoad ⟨none, 64⟩)).status =
      .failed .invalidMemoryOffset := by decide +kernel
  exact ⟨hjump, fault_has_cause _ _ _ _ hjump, hload, fault_has_cause _ _ _ _ hload⟩

end Execution

end WordMachine
