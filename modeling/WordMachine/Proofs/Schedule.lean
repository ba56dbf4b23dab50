import WordMachine.Proofs.StepLimit

/-!
# Schedules

An execution can be driven step by step, all at once, or partly one way and partly
the other, and looked at in between.  None of it shows in the result.  Every step
but the last one is counted, so that a limit of `n` steps ends the loop with step
`n + 1` at the latest: at the end of the code, or because the limit is found used
up.
-/

namespace WordMachine

namespace Execution

variable {code : Code} {limits : Limits} {e : Execution}

/-! ## The loop -/

/-- The loop that makes steps until the end makes `calls` of them. -/
def LoopEnds (e : Execution) (calls : Nat) : Prop :=
  (stepN calls e).status.isTerminal = true ∧ ∀ j < calls, (stepN j e).status = .running

theorem exists_loopEnds {k : Nat} (h : (stepN k e).status.isTerminal = true) :
    ∃ calls ≤ k, LoopEnds e calls := by
  induction k with
  | zero => exact ⟨0, Nat.le_refl 0, h, nofun⟩
  | succ k ih =>
      by_cases hrun : (stepN k e).status = .running
      · refine ⟨k + 1, Nat.le_refl _, h, fun j hj ↦ ?_⟩
        exact running_of_le hrun (Nat.le_of_lt_succ hj)
      · obtain ⟨calls, hle, hends⟩ := ih (isTerminal_iff.mpr hrun)
        exact ⟨calls, Nat.le_succ_of_le hle, hends⟩

/-- A limited run that still went on after step `n + 1` would have counted more
steps than it may. -/
theorem isTerminal_of_limit (code : Code) {n : Nat} (hlimit : limits.steps = some n) :
    (stepN (n + 1) (start code limits)).status.isTerminal = true := by
  refine isTerminal_iff.mpr fun hrun ↦ ?_
  have hle := (Sound.stepN code limits (n + 1)).steps_le n hlimit
  rw [steps_of_running hrun] at hle
  omega

/-! ## Running after some steps -/

theorem run_eq_stepN_budget (e : Execution) : e.run = stepN e.budget e :=
  runFor_eq_stepN _ _

theorem run_of_isTerminal (h : e.status.isTerminal = true) : e.run = e := by
  rw [run_eq_stepN_budget, stepN_of_isTerminal h]

theorem budget_start (code : Code) (limits : Limits) :
    (start code limits).budget = limits.steps.getD stepBound + 1 :=
  Nat.sub_zero _

/-- What is left of the budget is what the steps made so far have not used. -/
theorem budget_stepN {j : Nat} (hrun : (stepN j (start code limits)).status = .running) :
    (stepN j (start code limits)).budget = (start code limits).budget - j := by
  rw [budget_start, budget, steps_of_running hrun, (Sound.stepN code limits j).limits_eq]

/-- Steps made beforehand are taken off the run, as long as the budget covers
them or the run ends within it. -/
theorem run_stepN {j : Nat}
    (h : (start code limits).run.status = .running → j ≤ (start code limits).budget) :
    (stepN j (start code limits)).run = (start code limits).run := by
  rw [run_eq_stepN_budget (start code limits)] at h ⊢
  by_cases hrun : (stepN j (start code limits)).status = .running
  · have hcovers : j ≤ (start code limits).budget := by
      refine Decidable.byContradiction fun hover ↦ hover ?_
      exact h (running_of_le hrun (Nat.le_of_not_le hover))
    rw [run_eq_stepN_budget, budget_stepN hrun, ← stepN_add, Nat.add_sub_cancel' hcovers]
  · have hterminal := isTerminal_iff.mpr hrun
    rw [run_of_isTerminal hterminal]
    by_cases hend : (stepN (start code limits).budget (start code limits)).status = .running
    · exact (stepN_eq_of_le hterminal (h hend)).symm
    · exact stepN_eq_of_isTerminal hterminal (isTerminal_iff.mpr hend)

theorem terminates_stepN_iff (e : Execution) (j : Nat) (r : Result) :
    Terminates (stepN j e) r ↔ Terminates e r := by
  constructor
  · rintro ⟨k, hterminal, hresult⟩
    rw [← stepN_add] at hterminal hresult
    exact ⟨j + k, hterminal, hresult⟩
  · rintro ⟨k, hterminal, hresult⟩
    have hlater : stepN k (stepN j e) = stepN k e := by
      rw [← stepN_add]
      exact stepN_eq_of_le hterminal (Nat.le_add_left k j)
    exact ⟨k, hlater ▸ hterminal, hlater ▸ hresult⟩

/-! ## Runs that end -/

/-- The run ends with the result `r` and, where nothing limits it, while its steps
can be counted. -/
def Finishes (code : Code) (limits : Limits) (r : Result) : Prop :=
  Terminates (start code limits) r ∧ (limits.steps = none → r.steps < stepBound)

theorem Finishes.run_eq {r : Result} (h : Finishes code limits r) :
    WordMachine.run code limits = r := by
  obtain ⟨hterminates, hcounted⟩ := h
  obtain ⟨steps, memory⟩ := limits
  cases steps with
  | none => exact hterminates.run_eq (hcounted rfl)
  | some n =>
      rw [run_eq_stepN, Option.getD_some]
      exact hterminates.result_eq (isTerminal_of_limit code rfl)

/-- Under a limit every run ends. -/
theorem finishes_of_limit (code : Code) {n : Nat} (hlimit : limits.steps = some n) :
    Finishes code limits (WordMachine.run code limits) := by
  refine ⟨⟨n + 1, isTerminal_of_limit code hlimit, ?_⟩, ?_⟩
  · rw [run_eq_stepN, hlimit, Option.getD_some]
  · intro hnone
    cases hlimit.symm.trans hnone

theorem not_finishes_of_running (h : ∀ k, (stepN k (start code limits)).status = .running)
    (r : Result) : ¬Finishes code limits r := by
  rintro ⟨⟨k, hterminal, -⟩, -⟩
  exact isTerminal_iff.mp hterminal (h k)

/-! ## Calls -/

/-- What can be asked of an execution. -/
inductive Call where
  | step
  | run
  | result
deriving DecidableEq, Repr

/-- The execution after a call; asking for the result leaves it as it is. -/
def Call.apply : Call → Execution → Execution
  | step, e => e.step
  | run, e => e.run
  | result, e => e

def afterCalls (e : Execution) (calls : List Call) : Execution :=
  calls.foldl (fun e call ↦ call.apply e) e

theorem Call.apply_of_isTerminal (call : Call) (h : e.status.isTerminal = true) :
    call.apply e = e := by
  cases call with
  | step => exact step_of_isTerminal h
  | run => exact run_of_isTerminal h
  | result => rfl

theorem afterCalls_of_isTerminal (h : e.status.isTerminal = true) (calls : List Call) :
    e.afterCalls calls = e := by
  induction calls with
  | nil => rfl
  | cons call rest ih =>
      rw [afterCalls, List.foldl_cons, call.apply_of_isTerminal h]
      exact ih

/-- A limit of `n` steps ends the loop within `n + 1`; steps made before the run
make no difference to what it comes to, if it comes to an end, and none to what
it gives; and nothing is left to do when the end has been reached. -/
theorem run_schedule_independent (code : Code) (limits : Limits) :
    (∀ n, limits.steps = some n → ∃ calls ≤ n + 1, LoopEnds (start code limits) calls ∧
      (start code limits).run = stepN calls (start code limits)) ∧
    (∀ j r, Terminates (stepN j (start code limits)) r ↔ Terminates (start code limits) r) ∧
    (∀ j, ((start code limits).run.status = .running → j ≤ stepBound + 1) →
      (stepN j (start code limits)).run.result = (start code limits).run.result) ∧
    ∀ e : Execution, e.status.isTerminal = true → ∀ calls : List Call,
      e.afterCalls calls = e ∧ (e.afterCalls calls).result = e.result := by
  refine ⟨?_, fun j r ↦ terminates_stepN_iff _ j r, ?_, ?_⟩
  · intro n hlimit
    have hterminal := isTerminal_of_limit code hlimit
    obtain ⟨calls, hle, hends⟩ := exists_loopEnds hterminal
    refine ⟨calls, hle, hends, ?_⟩
    rw [run_eq_stepN_budget, budget_start, hlimit, Option.getD_some]
    exact stepN_eq_of_le hends.1 hle
  · intro j hcounted
    rw [run_stepN]
    intro hrun
    cases hlimit : limits.steps with
    | none =>
        rw [budget_start, hlimit, Option.getD_none]
        exact hcounted hrun
    | some n =>
        have hterminal := isTerminal_of_limit code hlimit
        rw [run_eq_stepN_budget, budget_start, hlimit, Option.getD_some] at hrun
        exact absurd hrun (isTerminal_iff.mp hterminal)
  · intro e hterminal calls
    rw [afterCalls_of_isTerminal hterminal]
    exact ⟨rfl, rfl⟩

/-- The program that never ends is cut off after five steps, whether three of
them are made by hand or not, and then stays as it is. -/
theorem run_schedule_independent_spin :
    (∃ calls ≤ 6, LoopEnds (start spin ⟨some 5, 0⟩) calls) ∧
      (stepN 3 (start spin ⟨some 5, 0⟩)).run.result = (start spin ⟨some 5, 0⟩).run.result ∧
      (stepN 6 (start spin ⟨some 5, 0⟩)).afterCalls [.run, .step, .result, .run] =
        stepN 6 (start spin ⟨some 5, 0⟩) := by
  obtain ⟨hbounded, -, hsplit, hstays⟩ := run_schedule_independent spin ⟨some 5, 0⟩
  obtain ⟨calls, hle, hends, -⟩ := hbounded 5 rfl
  exact ⟨⟨calls, hle, hends⟩, hsplit 3 (fun _ ↦ by decide),
    (hstays _ (by decide +kernel) _).1⟩

end Execution

end WordMachine
