import WordMachine.Proofs.Transition

/-!
# Reachable executions

What holds of an execution after any number of steps from the start of a
program, whatever the program and the limits.  `Sound` gathers what can be said
of one execution by itself; how it came to halt, and that memory never shrinks,
are facts about the run.  A fault changes nothing but the status, save that the
instruction at fault has been counted.
-/

namespace WordMachine

namespace Execution

variable {code : Code} {limits : Limits} {e next : Execution}

/-- What every execution of `code` under `limits` keeps to. -/
structure Sound (code : Code) (limits : Limits) (e : Execution) : Prop where
  code_eq : e.machine.code = code
  limits_eq : e.limits = limits
  pc_le : e.machine.pc ≤ code.size
  depth_le : e.machine.stack.depth ≤ Stack.capacity
  memory_limit : e.machine.memory.limit = limits.memory
  memory_whole : e.machine.memory.Whole
  steps_le : ∀ n, limits.steps = some n → e.steps ≤ n
  cut_off : ∀ n, e.status = .failed (.stepLimitExceeded n) → limits.steps = some n ∧ e.steps = n
  payload_nil : e.status ≠ .halted → e.status ≠ .reverted → e.payload = []

/-! ## The step limit -/

theorem exhausted?_eq_some_iff {limit : Nat} :
    e.exhausted? = some limit ↔ e.limits.steps = some limit ∧ limit ≤ e.steps := by
  unfold exhausted?
  split
  · next n hsteps =>
      rw [hsteps]
      split
      · next hle =>
          constructor
          · rintro ⟨⟩
            exact ⟨rfl, hle⟩
          · rintro ⟨⟨⟩, -⟩
            rfl
      · next hlt =>
          constructor
          · rintro ⟨⟩
          · rintro ⟨⟨⟩, hle⟩
            exact absurd hle hlt
  · next hsteps => simp [hsteps]

theorem lt_of_exhausted?_eq_none {n : Nat} (h : e.exhausted? = none)
    (hsteps : e.limits.steps = some n) : e.steps < n := by
  refine Nat.lt_of_not_le fun hle ↦ ?_
  rw [exhausted?_eq_some_iff.mpr ⟨hsteps, hle⟩] at h
  cases h

/-! ## The program counter -/

theorem pc_lt_of_currentByte? {m : Machine} {byte : UInt8} (h : m.currentByte? = some byte) :
    m.pc < m.code.size :=
  (Array.getElem?_eq_some_iff.mp h).1

theorem size_le_of_currentByte? {m : Machine} (h : m.currentByte? = none) :
    m.code.size ≤ m.pc :=
  Array.getElem?_eq_none_iff.mp h

/-- Wherever control goes, it stays within the code or at its end. -/
theorem pc_follow_le {op : Operation} {o : Outcome} {m : Machine} (h : o.Regular op m)
    (hpc : e.machine.pc = m.pc) (hinside : m.pc < m.code.size) :
    (follow e op o.flow).machine.pc ≤ m.code.size := by
  cases hflow : o.flow with
  | next =>
      simp only [follow, hpc]
      exact h.next hflow hinside
  | jump target =>
      have htarget := h.jump target hflow
      exact Nat.le_of_lt (Array.getElem?_eq_some_iff.mp htarget).1
  | stop | ret payload | revert payload =>
      simp only [follow, hpc]
      exact Nat.le_of_lt hinside

/-! ## Soundness -/

namespace Sound

theorem start (code : Code) (limits : Limits) : Sound code limits (start code limits) where
  code_eq := rfl
  limits_eq := rfl
  pc_le := Nat.zero_le _
  depth_le := Nat.zero_le _
  memory_limit := rfl
  memory_whole := Memory.whole_withLimit _
  steps_le := fun _ _ ↦ Nat.zero_le _
  cut_off := nofun
  payload_nil := fun _ _ ↦ rfl

theorem succ_steps_le (h : Sound code limits e) (hlimit : e.exhausted? = none) :
    ∀ n, limits.steps = some n → e.steps + 1 ≤ n := by
  intro n hn
  exact lt_of_exhausted?_eq_none hlimit (h.limits_eq ▸ hn)

theorem payload_of_running (h : Sound code limits e) (hrun : e.status = .running) :
    e.payload = [] :=
  h.payload_nil (by simp [hrun]) (by simp [hrun])

/-- A fault of the instruction itself. -/
theorem fail (h : Sound code limits e) (hrun : e.status = .running)
    (hlimit : e.exhausted? = none) {fault : Fault}
    (hfault : ∀ n, fault ≠ .stepLimitExceeded n) :
    Sound code limits { e with status := .failed fault, steps := e.steps + 1 } :=
  { h with
    steps_le := h.succ_steps_le hlimit
    cut_off := by
      rintro n ⟨⟩
      exact absurd rfl (hfault n)
    payload_nil := fun _ _ ↦ h.payload_of_running hrun }

theorem exhaust (h : Sound code limits e) (hrun : e.status = .running) {limit : Nat}
    (hlimit : e.exhausted? = some limit) :
    Sound code limits { e with status := .failed (.stepLimitExceeded limit) } := by
  obtain ⟨hsteps, hle⟩ := exhausted?_eq_some_iff.mp hlimit
  rw [h.limits_eq] at hsteps
  refine { h with cut_off := ?_, payload_nil := fun _ _ ↦ h.payload_of_running hrun }
  rintro n ⟨⟩
  exact ⟨hsteps, Nat.le_antisymm (h.steps_le _ hsteps) hle⟩

theorem perform (h : Sound code limits e) (hrun : e.status = .running)
    (hlimit : e.exhausted? = none) (hinside : e.machine.pc < e.machine.code.size)
    {op : Operation} {flow : Flow} {after : Machine}
    (heffect : op.effect e.machine = .ok (flow, after)) :
    Sound code limits (follow { e with machine := after, steps := e.steps + 1 } op flow) := by
  obtain ⟨o, below, hregular, hfits, rfl, rfl⟩ := Operation.effect_regular heffect
  refine ⟨?_, ?_, ?_, ?_, ?_, ?_, ?_, ?_, ?_⟩
  · rw [code_follow]
    exact h.code_eq
  · rw [limits_follow]
    exact h.limits_eq
  · rw [← h.code_eq]
    exact pc_follow_le hregular rfl hinside
  · rw [stack_follow]
    exact hfits
  · rw [memory_follow]
    exact hregular.memory.limit.trans h.memory_limit
  · rw [memory_follow]
    exact hregular.memory.whole h.memory_whole
  · rw [steps_follow]
    exact h.succ_steps_le hlimit
  · intro n
    cases o.flow <;> simp [follow, hrun]
  · cases o.flow <;> simp [follow, h.payload_of_running hrun]

theorem transition (h : Sound code limits e) (hrun : e.status = .running)
    (htransition : Transition e next) : Sound code limits next := by
  cases htransition with
  | ended hend => exact { h with cut_off := nofun, payload_nil := fun hne _ ↦ absurd rfl hne }
  | exhausted hbyte hlimit => exact h.exhaust hrun hlimit
  | invalid hbyte hlimit hop => exact h.fail hrun hlimit nofun
  | faulted hbyte hlimit hop heffect =>
      refine h.fail hrun hlimit fun n hfault ↦ ?_
      subst hfault
      exact Operation.effect_ne_stepLimitExceeded _ _ n heffect
  | performed hbyte hlimit hop heffect =>
      exact h.perform hrun hlimit (pc_lt_of_currentByte? hbyte) heffect

theorem stepN (code : Code) (limits : Limits) (k : Nat) :
    Sound code limits (stepN k (Execution.start code limits)) :=
  stepN_induction (Nat.zero_le _) (start code limits)
    (fun hrun htransition hsound ↦ hsound.transition hrun htransition) k

end Sound

/-! ## Memory along a run -/

theorem Transition.memory_successor (h : Transition e next) :
    Memory.Successor e.machine.memory next.machine.memory := by
  cases h with
  | ended | exhausted | invalid | faulted => exact .refl _
  | performed hbyte hlimit hop heffect =>
      obtain ⟨o, below, hregular, -, rfl, rfl⟩ := Operation.effect_regular heffect
      rw [memory_follow]
      exact hregular.memory

theorem memory_successor_of_le (code : Code) (limits : Limits) {j k : Nat} (hjk : j ≤ k) :
    Memory.Successor (stepN j (start code limits)).machine.memory
      (stepN k (start code limits)).machine.memory :=
  stepN_rel (r := fun e next ↦ Memory.Successor e.machine.memory next.machine.memory)
    (fun _ ↦ .refl _) .trans Transition.memory_successor code limits hjk

/-! ## Halting -/

/-- Within `k` steps from `e` the operation `op` has halted the run. -/
def HaltedBy (e : Execution) (k : Nat) (op : Operation) : Prop :=
  ∃ j < k, (stepN j e).status = .running ∧ (stepN j e).machine.currentOperation? = some op ∧
    (stepN (j + 1) e).status = .halted

instance (e : Execution) (k : Nat) (op : Operation) : Decidable (HaltedBy e k op) :=
  inferInstanceAs (Decidable (∃ j, j < k ∧ _))

/-- Either the code came to its end or one of two operations was carried out. -/
theorem Transition.halted (h : Transition e next) (hrun : e.status = .running)
    (hhalted : next.status = .halted) :
    e.machine.code.size ≤ next.machine.pc ∨ e.machine.currentOperation? = some .stop ∨
      e.machine.currentOperation? = some .ret := by
  cases h with
  | ended hend => exact .inl (size_le_of_currentByte? hend)
  | exhausted | invalid | faulted => cases hhalted
  | performed hbyte hlimit hop heffect =>
      obtain ⟨o, below, hregular, -, rfl, rfl⟩ := Operation.effect_regular heffect
      have hcurrent := Machine.currentOperation?_eq_some hbyte hop
      cases hflow : o.flow with
      | stop =>
          rw [hregular.stop hflow] at hcurrent
          exact .inr (.inl hcurrent)
      | ret payload =>
          rw [hregular.ret payload hflow] at hcurrent
          exact .inr (.inr hcurrent)
      | next | jump | revert =>
          rw [hflow] at hhalted
          simp [follow, hrun] at hhalted

theorem halted_stepN {k : Nat} (h : (stepN k (start code limits)).status = .halted) :
    (stepN k (start code limits)).machine.pc = code.size ∨
      HaltedBy (start code limits) k .stop ∨ HaltedBy (start code limits) k .ret := by
  induction k with
  | zero => cases h
  | succ k ih =>
      by_cases hrun : (stepN k (start code limits)).status = .running
      · rw [stepN_succ] at h
        have hsound := Sound.stepN code limits k
        rcases (transition_stepN hrun).halted hrun h with hend | hstop | hret
        · rw [← stepN_succ, hsound.code_eq] at hend
          exact .inl (Nat.le_antisymm (Sound.stepN code limits (k + 1)).pc_le hend)
        · exact .inr (.inl ⟨k, Nat.lt_succ_self k, hrun, hstop, (stepN_succ _ _).symm ▸ h⟩)
        · exact .inr (.inr ⟨k, Nat.lt_succ_self k, hrun, hret, (stepN_succ _ _).symm ▸ h⟩)
      · -- The run had ended before, and what ended it still counts.
        have hsame := stepN_eq_of_le (isTerminal_iff.mpr hrun) (Nat.le_succ k)
        rw [hsame] at h ⊢
        rcases ih h with hend | ⟨j, hj, hstop⟩ | ⟨j, hj, hret⟩
        · exact .inl hend
        · exact .inr (.inl ⟨j, Nat.lt_succ_of_lt hj, hstop⟩)
        · exact .inr (.inr ⟨j, Nat.lt_succ_of_lt hj, hret⟩)

/-- Every moment of a run is sound.  A halt that neither STOP nor RETURN has
brought about is at the end of the code, and memory has never been larger. -/
theorem sound_along_run (code : Code) (limits : Limits) (k : Nat) :
    Sound code limits (stepN k (start code limits)) ∧
      ((stepN k (start code limits)).status = .halted →
        ¬HaltedBy (start code limits) k .stop → ¬HaltedBy (start code limits) k .ret →
        (stepN k (start code limits)).machine.pc = code.size) ∧
      ∀ j ≤ k, (stepN j (start code limits)).machine.memory.size ≤
        (stepN k (start code limits)).machine.memory.size := by
  refine ⟨Sound.stepN code limits k, ?_, ?_⟩
  · intro hhalted hstop hret
    rcases halted_stepN hhalted with hend | h | h
    · exact hend
    · exact absurd h hstop
    · exact absurd h hret
  · intro j hjk
    exact (memory_successor_of_le code limits hjk).size

/-- Stores 42 at 0, and loads from 64. -/
def storeThenLoad : Code := #[0x60, 0x2a, 0x60, 0x00, 0x52, 0x60, 0x40, 0x51]

/-- With memory enough the end of the code is reached, and nothing halts the
machine before. -/
theorem sound_along_storeThenLoad :
    (stepN 6 (start storeThenLoad ⟨some 5, 96⟩)).status = .halted ∧
      (stepN 6 (start storeThenLoad ⟨some 5, 96⟩)).machine.pc = storeThenLoad.size ∧
      (stepN 6 (start storeThenLoad ⟨some 5, 96⟩)).steps ≤ 5 ∧
      (stepN 3 (start storeThenLoad ⟨some 5, 96⟩)).machine.memory.size ≤
        (stepN 6 (start storeThenLoad ⟨some 5, 96⟩)).machine.memory.size := by
  have hhalted : (stepN 6 (start storeThenLoad ⟨some 5, 96⟩)).status = .halted := by
    decide +kernel
  obtain ⟨hsound, hpc, hmemory⟩ := sound_along_run storeThenLoad ⟨some 5, 96⟩ 6
  exact ⟨hhalted, hpc hhalted (by decide +kernel) (by decide +kernel), hsound.steps_le 5 rfl,
    hmemory 3 (by decide)⟩

/-! ## Faults -/

theorem follow_not_failed {op : Operation} {flow : Flow} {fault : Fault}
    (hrun : e.status = .running) : (follow e op flow).status ≠ .failed fault := by
  cases flow <;> simp [follow, hrun]

theorem Transition.failed (h : Transition e next) (hrun : e.status = .running) {fault : Fault}
    (hfailed : next.status = .failed fault) :
    next = { e with status := .failed fault, steps := e.steps + 1 } ∧
        (∀ limit, fault ≠ .stepLimitExceeded limit) ∨
      next = { e with status := .failed fault } ∧ ∃ limit, fault = .stepLimitExceeded limit := by
  cases h with
  | ended => cases hfailed
  | exhausted =>
      cases hfailed
      exact .inr ⟨rfl, _, rfl⟩
  | invalid =>
      cases hfailed
      exact .inl ⟨rfl, nofun⟩
  | faulted hbyte hlimit hop heffect =>
      cases hfailed
      refine .inl ⟨rfl, fun limit hfault ↦ ?_⟩
      subst hfault
      exact Operation.effect_ne_stepLimitExceeded _ _ limit heffect
  | performed => exact absurd hfailed (follow_not_failed hrun)

/-- A fault leaves the machine and the payload as they were, and the step is
counted unless the limit refused it. -/
theorem failed_step_unchanged (code : Code) (limits : Limits) (k : Nat) (fault : Fault)
    (hrun : (stepN k (start code limits)).status = .running)
    (hfailed : (stepN (k + 1) (start code limits)).status = .failed fault) :
    (stepN (k + 1) (start code limits)).machine = (stepN k (start code limits)).machine ∧
      (stepN (k + 1) (start code limits)).payload = (stepN k (start code limits)).payload ∧
      ((∃ limit, fault = .stepLimitExceeded limit) →
        (stepN (k + 1) (start code limits)).steps = (stepN k (start code limits)).steps) ∧
      ((∀ limit, fault ≠ .stepLimitExceeded limit) →
        (stepN (k + 1) (start code limits)).steps = (stepN k (start code limits)).steps + 1) := by
  rw [stepN_succ] at hfailed ⊢
  rcases (transition_stepN hrun).failed hrun hfailed with ⟨hnext, hother⟩ | ⟨hnext, hlimit⟩
  · rw [hnext]
    refine ⟨rfl, rfl, ?_, fun _ ↦ rfl⟩
    rintro ⟨limit, hfault⟩
    exact absurd hfault (hother limit)
  · rw [hnext]
    obtain ⟨limit, hfault⟩ := hlimit
    exact ⟨rfl, rfl, fun _ ↦ rfl, fun hother ↦ absurd hfault (hother limit)⟩

/-- The load is refused, and neither its operand nor the memory is touched. -/
theorem failed_load_unchanged :
    (stepN 5 (start storeThenLoad ⟨none, 64⟩)).status = .failed .invalidMemoryOffset ∧
      (stepN 5 (start storeThenLoad ⟨none, 64⟩)).machine =
        (stepN 4 (start storeThenLoad ⟨none, 64⟩)).machine ∧
      (stepN 5 (start storeThenLoad ⟨none, 64⟩)).steps =
        (stepN 4 (start storeThenLoad ⟨none, 64⟩)).steps + 1 := by
  have hfailed : (stepN 5 (start storeThenLoad ⟨none, 64⟩)).status =
      .failed .invalidMemoryOffset := by decide +kernel
  obtain ⟨hmachine, -, -, hsteps⟩ := failed_step_unchanged _ _ 4 _ (by decide +kernel) hfailed
  exact ⟨hfailed, hmachine, hsteps nofun⟩

end Execution

end WordMachine
