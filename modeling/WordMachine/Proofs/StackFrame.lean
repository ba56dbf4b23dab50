import WordMachine.Proofs.Transition

/-!
# Stack frames

Words that lie beneath a stack are out of reach of what runs on it.  An
operation is given its operands and never sees what they were taken from; only
the two checks on the depth look at the whole stack.  So a run that finds its
operands, and leaves room for the words beneath, is the same run with these
words in place, and they come out of it as they went in.
-/

namespace WordMachine

namespace Machine

/-- The same machine with further words beneath its stack. -/
def underlay (m : Machine) (frame : List Word) : Machine :=
  { m with stack := ⟨m.stack.words ++ frame⟩ }

theorem depth_underlay (m : Machine) (frame : List Word) :
    (m.underlay frame).stack.depth = m.stack.depth + frame.length :=
  List.length_append

end Machine

namespace Operation

variable {op : Operation} {m : Machine} {frame : List Word}

theorem outcome_underlay (op : Operation) (m : Machine) (frame operands : List Word) :
    op.outcome (m.underlay frame) operands = op.outcome m operands := rfl

theorem effect_underlay_of_operands {operands below : List Word}
    (hwords : m.stack.words = operands ++ below) (hlength : operands.length = op.inputs) :
    op.effect (m.underlay frame) =
      op.outcome m operands >>= fun o ↦ o.place (m.underlay frame) (below ++ frame) := by
  have hframed : (m.underlay frame).stack.words = operands ++ (below ++ frame) := by
    rw [← List.append_assoc, ← hwords]
    rfl
  rw [effect_of_operands op operands (below ++ frame) hframed hlength, outcome_underlay]

theorem effect_underlay_of_ok {flow : Flow} {after : Machine}
    (h : op.effect m = .ok (flow, after))
    (hroom : after.stack.depth + frame.length ≤ Stack.capacity) :
    op.effect (m.underlay frame) = .ok (flow, after.underlay frame) := by
  obtain ⟨operands, below, o, hwords, hlength, houtcome, -, rfl, rfl⟩ := effect_eq_ok h
  have hfits : (o.results ++ (below ++ frame)).length ≤ Stack.capacity := by
    rw [← List.append_assoc, List.length_append]
    exact hroom
  rw [effect_underlay_of_operands hwords hlength, houtcome, Fault.ok_bind, Outcome.place,
    if_pos hfits, ← List.append_assoc]
  rfl

/-- A stack that is too full stays so with more beneath it; one that is too short
might not. -/
theorem effect_underlay_of_error {fault : Fault} (h : op.effect m = .error fault)
    (hfault : fault ≠ .stackUnderflow) : op.effect (m.underlay frame) = .error fault := by
  rcases effect_eq_error h with ⟨-, hunder⟩ | ⟨operands, below, hwords, hlength, hcause⟩
  · exact absurd hunder hfault
  · rw [effect_underlay_of_operands hwords hlength]
    rcases hcause with houtcome | ⟨rfl, o, houtcome, hfull⟩
    · rw [houtcome, Fault.error_bind]
    · have hfuller : ¬(o.results ++ (below ++ frame)).length ≤ Stack.capacity := by
        rw [← List.append_assoc, List.length_append]
        omega
      rw [houtcome, Fault.ok_bind, Outcome.place, if_neg hfuller]

end Operation

namespace Execution

def underlay (e : Execution) (frame : List Word) : Execution :=
  { e with machine := e.machine.underlay frame }

variable {e next : Execution} {frame : List Word}

theorem follow_underlay (e : Execution) (frame : List Word) (op : Operation) (flow : Flow) :
    follow (e.underlay frame) op flow = (follow e op flow).underlay frame := by
  cases flow <;> rfl

theorem Transition.underlay (h : Transition e next)
    (hunder : next.status ≠ .failed .stackUnderflow)
    (hroom : next.machine.stack.depth + frame.length ≤ Stack.capacity) :
    Transition (e.underlay frame) (next.underlay frame) := by
  cases h with
  | ended hend => exact .ended hend
  | exhausted hbyte hlimit => exact .exhausted hbyte hlimit
  | invalid hbyte hlimit hop => exact .invalid hbyte hlimit hop
  | faulted hbyte hlimit hop heffect =>
      refine .faulted hbyte hlimit hop (Operation.effect_underlay_of_error heffect ?_)
      rintro rfl
      exact hunder rfl
  | performed hbyte hlimit hop heffect =>
      rw [stack_follow] at hroom
      rw [← follow_underlay]
      exact .performed hbyte hlimit hop (Operation.effect_underlay_of_ok heffect hroom)

/-- A run that never lacks an operand, and always has room for the words of
`frame`, goes the same way with these words beneath its stack. -/
theorem run_over_frame (e : Execution) (frame : List Word) (n : Nat)
    (hunder : ∀ k < n, (stepN k e).status = .running →
      (stepN (k + 1) e).status ≠ .failed .stackUnderflow)
    (hroom : ∀ k ≤ n, (stepN k e).machine.stack.depth + frame.length ≤ Stack.capacity) :
    ∀ k ≤ n, stepN k (e.underlay frame) = (stepN k e).underlay frame := by
  intro k hk
  refine stepN_commute (f := fun e ↦ e.underlay frame) (fun _ ↦ rfl) ?_ hk
  intro j hj hrun
  have hdepth : (stepN j e).machine.stack.depth + frame.length ≤ Stack.capacity :=
    hroom j (Nat.le_of_lt hj)
  have htransition : Transition (stepN j e) (stepN (j + 1) e) := by
    rw [stepN_succ]
    exact transition_step hrun (Nat.le_trans (Nat.le_add_right _ _) hdepth)
  have hframed : Transition ((stepN j e).underlay frame) ((stepN (j + 1) e).underlay frame) :=
    htransition.underlay (hunder j hj hrun) (hroom (j + 1) hj)
  refine hframed.step_eq hrun ?_
  rw [← Machine.depth_underlay] at hdepth
  exact hdepth

/-- Exchanges the first word and the third, adds, copies the second word, stores
and loads. -/
def shuffle : Code := #[0x91, 0x01, 0x81, 0x52, 0x51]

def shuffling : Execution :=
  let e := start shuffle ⟨some 4, 64⟩
  { e with machine := { e.machine with stack := ⟨[3#256, 2#256, 1#256]⟩ } }

/-- Two words beneath the three are there when the run is cut off. -/
theorem shuffling_over_frame :
    (∀ k < 5, (stepN k shuffling).status = .running →
        (stepN (k + 1) shuffling).status ≠ .failed .stackUnderflow) ∧
      (∀ k ≤ 5, (stepN k shuffling).machine.stack.depth + [7#256, 8#256].length ≤
        Stack.capacity) ∧
      (stepN 5 (shuffling.underlay [7#256, 8#256])).status = .failed (.stepLimitExceeded 4) ∧
      (stepN 5 (shuffling.underlay [7#256, 8#256])).machine.stack.words =
        [3#256, 7#256, 8#256] := by
  have hunder : ∀ k < 5, (stepN k shuffling).status = .running →
      (stepN (k + 1) shuffling).status ≠ .failed .stackUnderflow := by decide +kernel
  have hroom : ∀ k ≤ 5, (stepN k shuffling).machine.stack.depth + [7#256, 8#256].length ≤
      Stack.capacity := by decide +kernel
  refine ⟨hunder, hroom, ?_⟩
  rw [run_over_frame shuffling [7#256, 8#256] 5 hunder hroom 5 (Nat.le_refl 5)]
  exact ⟨by decide +kernel, by decide +kernel⟩

end Execution

end WordMachine
