import WordMachine.Proofs.Reachable

/-!
# The step limit

A limit on the steps cuts a run off and does nothing else.  Under the limit `n`
the first `n` steps are those of the run without a limit; what the step after
them does is decided by whether the code has another instruction to begin.  So
the limited run gives the result of the other one, if that has been reached with
`n` instructions, and otherwise shows the stack as it is after `n` of them.
-/

namespace WordMachine

namespace Execution

variable {code : Code} {limits : Limits} {e next : Execution}

/-! ## Counting -/

theorem Transition.le_steps (h : Transition e next) : e.steps ≤ next.steps := by
  cases h with
  | ended | exhausted => exact Nat.le_refl _
  | invalid | faulted => exact Nat.le_succ _
  | performed =>
      rw [steps_follow]
      exact Nat.le_succ _

theorem Transition.steps_le (h : Transition e next) : next.steps ≤ e.steps + 1 := by
  cases h with
  | ended | exhausted => exact Nat.le_succ _
  | invalid | faulted => exact Nat.le_refl _
  | performed => exact Nat.le_of_eq (steps_follow _ _ _)

/-- Without a limit, an instruction that is there is counted. -/
theorem Transition.steps_of_currentByte? (h : Transition e next) (hlimits : e.limits.steps = none)
    {byte : UInt8} (hbyte : e.machine.currentByte? = some byte) : next.steps = e.steps + 1 := by
  cases h with
  | ended hend =>
      rw [hbyte] at hend
      cases hend
  | exhausted _ hlimit =>
      rw [exhausted?_eq_some_iff, hlimits] at hlimit
      cases hlimit.1
  | invalid | faulted => rfl
  | performed => exact steps_follow _ _ _

theorem Transition.steps_of_running (h : Transition e next) (hnext : next.status = .running) :
    next.steps = e.steps + 1 := by
  cases h with
  | ended | exhausted | invalid | faulted => cases hnext
  | performed => exact steps_follow _ _ _

/-- While it goes on, a run counts every step. -/
theorem steps_of_running {k : Nat} (hrun : (stepN k (start code limits)).status = .running) :
    (stepN k (start code limits)).steps = k := by
  induction k with
  | zero => rfl
  | succ k ih =>
      have hbefore := running_of_le hrun (Nat.le_succ k)
      rw [stepN_succ] at hrun ⊢
      rw [(transition_stepN hbefore).steps_of_running hrun, ih hbefore]

theorem steps_stepN_le (code : Code) (limits : Limits) (k : Nat) :
    (stepN k (start code limits)).steps ≤ k := by
  induction k with
  | zero => exact Nat.le_refl 0
  | succ k ih =>
      rw [stepN_succ]
      by_cases hrun : (stepN k (start code limits)).status = .running
      · exact Nat.le_trans (transition_stepN hrun).steps_le (Nat.succ_le_succ ih)
      · rw [step_of_isTerminal (isTerminal_iff.mpr hrun)]
        exact Nat.le_succ_of_le ih

theorem steps_le_steps (code : Code) (limits : Limits) {j k : Nat} (hjk : j ≤ k) :
    (stepN j (start code limits)).steps ≤ (stepN k (start code limits)).steps :=
  stepN_rel (r := fun e next ↦ e.steps ≤ next.steps) (fun _ ↦ Nat.le_refl _) Nat.le_trans
    Transition.le_steps code limits hjk

/-- A run that has ended will not count any more. -/
theorem steps_le_of_isTerminal {k : Nat}
    (hterminal : (stepN k (start code limits)).status.isTerminal = true) (j : Nat) :
    (stepN j (start code limits)).steps ≤ (stepN k (start code limits)).steps := by
  rcases Nat.le_total j k with hjk | hkj
  · exact steps_le_steps code limits hjk
  · exact Nat.le_of_eq (congrArg steps (stepN_eq_of_le hterminal hkj))

/-! ## Imposing a limit -/

/-- The same execution, limited to `n` steps. -/
def limitSteps (e : Execution) (n : Nat) : Execution :=
  { e with limits := { e.limits with steps := some n } }

theorem follow_limitSteps (e : Execution) (n : Nat) (op : Operation) (flow : Flow) :
    follow (e.limitSteps n) op flow = (follow e op flow).limitSteps n := by
  cases flow <;> rfl

theorem exhausted?_limitSteps_of_lt {n : Nat} (h : e.steps < n) :
    (e.limitSteps n).exhausted? = none :=
  if_neg (Nat.not_le_of_lt h)

theorem exhausted?_limitSteps_of_le {n : Nat} (h : n ≤ e.steps) :
    (e.limitSteps n).exhausted? = some n :=
  if_pos h

/-- Short of the limit, and also at the end of the code, the limit is not felt. -/
theorem Transition.limitSteps (h : Transition e next) (hlimits : e.limits.steps = none) {n : Nat}
    (hfree : e.steps < n ∨ e.machine.currentByte? = none) :
    Transition (e.limitSteps n) (next.limitSteps n) := by
  have hbelow : ∀ byte, e.machine.currentByte? = some byte → (e.limitSteps n).exhausted? = none := by
    intro byte hbyte
    rcases hfree with hlt | hend
    · exact exhausted?_limitSteps_of_lt hlt
    · rw [hend] at hbyte
      cases hbyte
  cases h with
  | ended hend => exact .ended hend
  | exhausted hbyte hlimit =>
      rw [exhausted?_eq_some_iff, hlimits] at hlimit
      cases hlimit.1
  | invalid hbyte _ hop => exact .invalid hbyte (hbelow _ hbyte) hop
  | faulted hbyte _ hop heffect => exact .faulted hbyte (hbelow _ hbyte) hop heffect
  | performed hbyte _ hop heffect =>
      rw [← follow_limitSteps]
      exact .performed hbyte (hbelow _ hbyte) hop heffect

/-! ## Runs with and without a limit -/

theorem run_eq_stepN (code : Code) (limits : Limits) :
    WordMachine.run code limits =
      (stepN (limits.steps.getD stepBound + 1) (start code limits)).result := by
  have hbudget : (start code limits).budget = limits.steps.getD stepBound + 1 := Nat.sub_zero _
  rw [WordMachine.run, Execution.run, runFor_eq_stepN, hbudget]

section

variable (code : Code) (memory : Nat)

theorem stepN_limited {k n : Nat} (hkn : k ≤ n) :
    stepN k (start code ⟨some n, memory⟩) = (stepN k (start code ⟨none, memory⟩)).limitSteps n := by
  induction k with
  | zero => rfl
  | succ k ih =>
      rw [stepN_succ, stepN_succ, ih (Nat.le_of_succ_le hkn)]
      by_cases hrun : (stepN k (start code ⟨none, memory⟩)).status = .running
      · have hbelow : (stepN k (start code ⟨none, memory⟩)).steps < n := by
          rw [steps_of_running hrun]
          exact hkn
        have hlimits := congrArg Limits.steps (Sound.stepN code ⟨none, memory⟩ k).limits_eq
        have htransition := (transition_stepN hrun).limitSteps hlimits (.inl hbelow)
        exact htransition.step_eq hrun (depth_stepN_start code _ k)
      · have hterminal := isTerminal_iff.mpr hrun
        rw [step_of_isTerminal hterminal]
        exact step_of_isTerminal hterminal

theorem run_limited_eq (n : Nat) :
    WordMachine.run code ⟨some n, memory⟩ =
      ((stepN n (start code ⟨none, memory⟩)).limitSteps n).step.result := by
  rw [run_eq_stepN, Option.getD_some, stepN_succ, stepN_limited code memory (Nat.le_refl n)]

/-- The result of a run that was cut off after `n` steps. -/
def cutOff (n : Nat) : Result :=
  ⟨.failed (.stepLimitExceeded n), (stepN n (start code ⟨none, memory⟩)).machine.stack.words, [], n⟩

/-- The limited run has either found the end of the other one, or it has been
cut off where that one began an instruction more. -/
theorem run_limited_cases (n : Nat) :
    (stepN (n + 1) (start code ⟨none, memory⟩)).status.isTerminal = true ∧
        (stepN (n + 1) (start code ⟨none, memory⟩)).steps ≤ n ∧
        WordMachine.run code ⟨some n, memory⟩ = (stepN (n + 1) (start code ⟨none, memory⟩)).result ∨
      (stepN (n + 1) (start code ⟨none, memory⟩)).steps = n + 1 ∧
        WordMachine.run code ⟨some n, memory⟩ = cutOff code memory n := by
  by_cases hrun : (stepN n (start code ⟨none, memory⟩)).status = .running
  · have hdepth := depth_stepN_start code ⟨none, memory⟩ n
    have hlimits := congrArg Limits.steps (Sound.stepN code ⟨none, memory⟩ n).limits_eq
    have hsteps := steps_of_running hrun
    rw [run_limited_eq, stepN_succ]
    cases hbyte : (stepN n (start code ⟨none, memory⟩)).machine.currentByte? with
    | none =>
        left
        have hended := Transition.ended hbyte
        rw [(hended.limitSteps hlimits (.inr hbyte)).step_eq hrun hdepth,
          hended.step_eq hrun hdepth]
        exact ⟨rfl, Nat.le_of_eq hsteps, rfl⟩
    | some byte =>
        right
        have hcounted := (transition_stepN hrun).steps_of_currentByte? hlimits hbyte
        have hexhausted := Transition.exhausted (e := Execution.limitSteps _ n) hbyte
          (exhausted?_limitSteps_of_le (Nat.le_of_eq hsteps.symm))
        have hpayload := (Sound.stepN code ⟨none, memory⟩ n).payload_of_running hrun
        rw [hexhausted.step_eq hrun hdepth]
        refine ⟨by rw [hcounted, hsteps], ?_⟩
        simp only [result, cutOff, limitSteps, hsteps, hpayload]
  · left
    have hterminal := isTerminal_iff.mpr hrun
    have hlimited : ((stepN n (start code ⟨none, memory⟩)).limitSteps n).step =
        (stepN n (start code ⟨none, memory⟩)).limitSteps n := step_of_isTerminal hterminal
    rw [run_limited_eq, hlimited, stepN_succ, step_of_isTerminal hterminal]
    exact ⟨hterminal, steps_stepN_le code _ n, rfl⟩

end

/-- The run from `e` comes to an end, with the result `r`. -/
def Terminates (e : Execution) (r : Result) : Prop :=
  ∃ k, (stepN k e).status.isTerminal = true ∧ (stepN k e).result = r

theorem stepN_eq_of_isTerminal {j k : Nat} (hj : (stepN j e).status.isTerminal = true)
    (hk : (stepN k e).status.isTerminal = true) : stepN j e = stepN k e := by
  rcases Nat.le_total j k with hjk | hkj
  · exact (stepN_eq_of_le hj hjk).symm
  · exact stepN_eq_of_le hk hkj

namespace Terminates

variable {memory : Nat} {r : Result}

theorem result_eq {k : Nat} (h : Terminates e r) (hk : (stepN k e).status.isTerminal = true) :
    (stepN k e).result = r := by
  obtain ⟨j, hj, rfl⟩ := h
  rw [stepN_eq_of_isTerminal hk hj]

theorem steps_le (h : Terminates (start code limits) r) (k : Nat) :
    (stepN k (start code limits)).steps ≤ r.steps := by
  obtain ⟨j, hj, rfl⟩ := h
  exact steps_le_of_isTerminal hj k

theorem run_eq (h : Terminates (start code ⟨none, memory⟩) r) (hbound : r.steps < stepBound) :
    WordMachine.run code ⟨none, memory⟩ = r := by
  rw [run_eq_stepN, Option.getD_none]
  refine h.result_eq (isTerminal_iff.mpr fun hrunning ↦ ?_)
  have hsteps := h.steps_le (stepBound + 1)
  rw [steps_of_running hrunning] at hsteps
  omega

theorem run_limited_of_le (h : Terminates (start code ⟨none, memory⟩) r) {n : Nat}
    (hn : r.steps ≤ n) : WordMachine.run code ⟨some n, memory⟩ = r := by
  rcases run_limited_cases code memory n with ⟨hterminal, -, hrun⟩ | ⟨hsteps, -⟩
  · rw [hrun, h.result_eq hterminal]
  · have hle := h.steps_le (n + 1)
    omega

theorem run_limited_of_lt (h : Terminates (start code ⟨none, memory⟩) r) {n : Nat}
    (hn : n < r.steps) : WordMachine.run code ⟨some n, memory⟩ = cutOff code memory n := by
  rcases run_limited_cases code memory n with ⟨hterminal, hle, -⟩ | ⟨-, hrun⟩
  · rw [← h.result_eq hterminal] at hn
    exact absurd hle (Nat.not_le_of_lt hn)
  · exact hrun

end Terminates

/-- With steps enough a limited run gives the result of the run without a limit,
and otherwise, or where there is none, that of a run cut off. -/
theorem run_cut_off (code : Code) (memory : Nat) :
    (∀ r, Terminates (start code ⟨none, memory⟩) r →
      (r.steps < stepBound → WordMachine.run code ⟨none, memory⟩ = r) ∧
        (∀ n, r.steps ≤ n → WordMachine.run code ⟨some n, memory⟩ = r) ∧
        ∀ n < r.steps, WordMachine.run code ⟨some n, memory⟩ = cutOff code memory n) ∧
      ((∀ k, (stepN k (start code ⟨none, memory⟩)).status = .running) →
        ∀ n, WordMachine.run code ⟨some n, memory⟩ = cutOff code memory n) := by
  constructor
  · intro r hterminates
    exact ⟨hterminates.run_eq, fun _ ↦ hterminates.run_limited_of_le,
      fun _ ↦ hterminates.run_limited_of_lt⟩
  · intro hforever n
    rcases run_limited_cases code memory n with ⟨hterminal, -⟩ | ⟨-, hrun⟩
    · exact absurd (hforever (n + 1)) (isTerminal_iff.mp hterminal)
    · exact hrun

/-- Jumps back to its beginning for ever. -/
def spin : Code := #[0x5b, 0x60, 0x00, 0x56]

def spinAt (steps pc : Nat) (words : List Word) : Execution :=
  ⟨⟨spin, pc, ⟨words⟩, Memory.withLimit 0⟩, ⟨none, 0⟩, .running, steps, []⟩

theorem stepN_spinAt (steps : Nat) : stepN 3 (spinAt steps 0 []) = spinAt (steps + 3) 0 [] := by
  have hmark : Operation.jumpdest.effect (spinAt steps 0 []).machine =
      .ok (.next, (spinAt steps 0 []).machine) := rfl
  have hpush : (Operation.push 1).effect (spinAt (steps + 1) 1 []).machine =
      .ok (.next, (spinAt (steps + 1) 1 [0#256]).machine) := rfl
  have hjump : Operation.jump.effect (spinAt (steps + 2) 3 [0#256]).machine =
      .ok (.jump 0, (spinAt (steps + 2) 3 []).machine) := rfl
  calc stepN 3 (spinAt steps 0 [])
    _ = stepN 2 (spinAt (steps + 1) 1 []) :=
        congrArg (stepN 2) ((Transition.performed rfl rfl rfl hmark).step_eq rfl (Nat.zero_le _))
    _ = stepN 1 (spinAt (steps + 2) 3 [0#256]) :=
        congrArg (stepN 1) ((Transition.performed rfl rfl rfl hpush).step_eq rfl (Nat.zero_le _))
    _ = spinAt (steps + 3) 0 [] :=
        (Transition.performed rfl rfl rfl hjump).step_eq rfl
          (Nat.succ_le_succ (Nat.zero_le _))

theorem spin_running (k : Nat) : (stepN k (start spin ⟨none, 0⟩)).status = .running := by
  have hturns : ∀ turns, stepN (3 * turns) (start spin ⟨none, 0⟩) = spinAt (3 * turns) 0 [] := by
    intro turns
    induction turns with
    | zero => rfl
    | succ turns ih => rw [Nat.mul_succ, stepN_add, ih, stepN_spinAt]
  refine running_of_le (k := 3 * k) ?_ (Nat.le_mul_of_pos_left k (by decide))
  rw [hturns]
  rfl

/-- Five instructions end one program; the other never ends. -/
theorem run_cut_off_storeThenLoad_spin :
    WordMachine.run storeThenLoad ⟨some 5, 96⟩ =
        (stepN 6 (start storeThenLoad ⟨none, 96⟩)).result ∧
      WordMachine.run storeThenLoad ⟨some 4, 96⟩ = cutOff storeThenLoad 96 4 ∧
      WordMachine.run spin ⟨some 1000000, 0⟩ = cutOff spin 0 1000000 := by
  have hend : Terminates (start storeThenLoad ⟨none, 96⟩)
      (stepN 6 (start storeThenLoad ⟨none, 96⟩)).result := ⟨6, by decide +kernel, rfl⟩
  obtain ⟨-, hreached, hcut⟩ := (run_cut_off storeThenLoad 96).1 _ hend
  exact ⟨hreached 5 (by decide +kernel), hcut 4 (by decide +kernel),
    (run_cut_off spin 0).2 spin_running 1000000⟩

end Execution

end WordMachine
