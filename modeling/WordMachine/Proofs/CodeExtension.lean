import WordMachine.Proofs.Reachable

/-!
# Longer code

Bytes put behind a program do not change what the program does, for as long as
it does not come to its end.  Three faults tell how long the code is: an
immediate that is cut short, a jump out of bounds, and a jump to the position
just behind the last byte.  A step that comes to none of them, and finds an
instruction to begin, is the same step with more code behind it.
-/

namespace WordMachine

namespace Fault

/-- The faults that code of another length might not have. -/
def tellsSize (size : Nat) : Fault → Bool
  | pcOutOfBounds _ => true
  | jumpOutOfBounds _ => true
  | jumpToInvalidDestination target => target == size
  | _ => false

/-- A result that does not tell the size of the code by a fault. -/
def Silent {α : Type} (size : Nat) (r : Except Fault α) : Prop :=
  ∀ fault, r = .error fault → fault.tellsSize size = false

theorem Silent.of_bind {α β : Type} {size : Nat} {x : Except Fault α} {f : α → Except Fault β}
    (h : Silent size (x >>= f)) : Silent size x := by
  intro fault hx
  refine h fault ?_
  rw [hx, error_bind]

theorem silent_ok {α : Type} (size : Nat) (a : α) : Silent size (.ok a : Except Fault α) := nofun

end Fault

open Fault (Silent)

/-! ## What reads the code -/

namespace Code

variable (p q : Code)

theorem immediate_append {pc width : Nat} (h : Silent p.size (p.immediate pc width)) :
    Code.immediate (p ++ q) pc width = p.immediate pc width := by
  by_cases hinside : pc + width < p.size
  · have hlonger : pc + width < (p ++ q).size := by
      rw [Array.size_append]
      omega
    have hbytes : (p ++ q).extract (pc + 1) (pc + width + 1) =
        p.extract (pc + 1) (pc + width + 1) := by
      rw [Array.extract_append, Nat.sub_eq_zero_of_le hinside]
      simp
    simp only [immediate, hinside, hlonger, if_true, hbytes]
  · have hcut : p.immediate pc width = .error (.pcOutOfBounds (pc + width)) := if_neg hinside
    cases h _ hcut

theorem jumpTarget_append {destination : Word} (h : Silent p.size (p.jumpTarget destination)) :
    Code.jumpTarget (p ++ q) destination = p.jumpTarget destination := by
  cases hsize : destination.toSize? with
  | none => simp only [jumpTarget, hsize]
  | some target =>
      simp only [jumpTarget, hsize] at h ⊢
      rcases Nat.lt_trichotomy target p.size with hlt | heq | hgt
      · have hlonger : target ≤ (p ++ q).size := by
          rw [Array.size_append]
          omega
        rw [if_pos hlonger, if_pos (Nat.le_of_lt hlt), Array.getElem?_append_left hlt]
      · -- Nothing marks the end of `p`, but a byte of `q` may.
        have hunmarked : p[target]? ≠ some Operation.jumpdestByte := by simp [heq]
        rw [if_pos (Nat.le_of_eq heq), if_neg hunmarked] at h
        have hfalse := h _ rfl
        simp [Fault.tellsSize, heq] at hfalse
      · rw [if_neg (Nat.not_le_of_lt hgt)] at h
        cases h _ rfl

end Code

namespace Machine

/-- The same machine with more code behind its own. -/
def extend (m : Machine) (q : Code) : Machine := { m with code := m.code ++ q }

theorem currentByte?_extend {m : Machine} (q : Code) (h : m.pc < m.code.size) :
    (m.extend q).currentByte? = m.currentByte? :=
  Array.getElem?_append_left h

end Machine

namespace Outcome

variable {m : Machine} (q : Code)

theorem ofJump_extend {destination : Word} (h : Silent m.code.size (ofJump m destination)) :
    ofJump (m.extend q) destination = ofJump m destination := by
  have htarget : (m.extend q).jumpTarget destination = m.jumpTarget destination :=
    Code.jumpTarget_append m.code q h.of_bind
  simp only [ofJump, htarget]
  rfl

theorem ofImmediate_extend {width : Nat} (h : Silent m.code.size (ofImmediate m width)) :
    ofImmediate (m.extend q) width = ofImmediate m width := by
  have hvalue : (m.extend q).immediate width = m.immediate width :=
    Code.immediate_append m.code q h.of_bind
  simp only [ofImmediate, hvalue]
  rfl

theorem place_extend (o : Outcome) (below : List Word) :
    o.place (m.extend q) below =
      (o.place m below).map fun (flow, after) ↦ (flow, after.extend q) := by
  unfold place
  split <;> rfl

end Outcome

namespace Operation

theorem outcome_extend {op : Operation} {m : Machine} {operands : List Word} (q : Code)
    (hlength : operands.length = op.inputs) (h : Silent m.code.size (op.outcome m operands)) :
    op.outcome (m.extend q) operands = op.outcome m operands := by
  refine outcome_cases m
    (motive := fun op operands r ↦ Silent m.code.size r → op.outcome (m.extend q) operands = r)
    ?stop ?unary ?binary ?ternary ?pop ?mload ?mstore ?mstore8 ?jump ?pass ?branch ?pc ?msize
    ?jumpdest ?push ?dup_zero ?dup ?swap_zero ?swap ?ret ?revert hlength h
  case stop | unary | binary | ternary | pop | mload | mstore | mstore8 | pass | pc | msize |
      jumpdest | dup_zero | swap_zero | ret | revert =>
    intros
    rfl
  case jump => exact fun _ h ↦ Outcome.ofJump_extend q h
  case push => exact fun _ h ↦ Outcome.ofImmediate_extend q h
  case branch =>
    intro destination condition hcondition h
    rw [← Outcome.ofJump_extend q h]
    exact if_neg hcondition
  case dup =>
    intro above w _
    simp only [outcome, List.getLast?_concat]
    rfl
  case swap =>
    intro top above w _
    simp only [outcome, List.getLast?_concat, List.dropLast_concat]
    rfl

theorem effect_extend {op : Operation} {m : Machine} (q : Code)
    (h : Silent m.code.size (op.effect m)) :
    op.effect (m.extend q) = (op.effect m).map fun (flow, after) ↦ (flow, after.extend q) := by
  by_cases hdepth : m.stack.depth < op.inputs
  · rw [effect_of_lt hdepth]
    exact effect_of_lt hdepth
  · obtain ⟨operands, below, hwords, hlength⟩ := exists_operands (Nat.le_of_not_lt hdepth)
    have hextended : (m.extend q).stack.words = operands ++ below := hwords
    rw [effect_of_operands op operands below hwords hlength] at h ⊢
    rw [effect_of_operands op operands below hextended hlength, outcome_extend q hlength h.of_bind]
    cases op.outcome m operands with
    | error fault => rfl
    | ok o => exact o.place_extend q below

end Operation

/-! ## Runs -/

namespace Execution

def extend (e : Execution) (q : Code) : Execution := { e with machine := e.machine.extend q }

variable {e next : Execution} (q : Code)

theorem follow_extend (e : Execution) (op : Operation) (flow : Flow) :
    follow (e.extend q) op flow = (follow e op flow).extend q := by
  cases flow <;> rfl

theorem Transition.extend (h : Transition e next)
    (hinside : e.machine.pc < e.machine.code.size)
    (hsilent : ∀ fault, next.status = .failed fault →
      fault.tellsSize e.machine.code.size = false) :
    Transition (e.extend q) (next.extend q) := by
  have hcurrent := Machine.currentByte?_extend q hinside
  cases h with
  | ended hend => exact absurd (size_le_of_currentByte? hend) (Nat.not_le_of_lt hinside)
  | exhausted hbyte hlimit => exact .exhausted (hcurrent.trans hbyte) hlimit
  | invalid hbyte hlimit hop => exact .invalid (hcurrent.trans hbyte) hlimit hop
  | faulted hbyte hlimit hop heffect =>
      refine .faulted (hcurrent.trans hbyte) hlimit hop ?_
      have hextended := Operation.effect_extend q (m := e.machine) fun fault hfault ↦ by
        rw [heffect] at hfault
        cases hfault
        exact hsilent _ rfl
      rw [heffect] at hextended
      exact hextended
  | performed hbyte hlimit hop heffect =>
      rw [← follow_extend]
      refine .performed (hcurrent.trans hbyte) hlimit hop ?_
      have hextended := Operation.effect_extend q (m := e.machine) (heffect ▸ Fault.silent_ok _ _)
      rw [heffect] at hextended
      exact hextended

theorem Transition.pc_lt (h : Transition e next) (hnext : next.status = .running) :
    e.machine.pc < e.machine.code.size := by
  cases h with
  | ended | exhausted | invalid | faulted => cases hnext
  | performed hbyte => exact pc_lt_of_currentByte? hbyte

section

variable {p : Code} {limits : Limits} {k : Nat}

/-- If the runs have kept together so far, they keep together for one more step. -/
theorem stepN_succ_extend (hrun : (stepN k (start p limits)).status = .running)
    (hsame : stepN k (start (p ++ q) limits) = (stepN k (start p limits)).extend q)
    (hinside : (stepN k (start p limits)).machine.pc < p.size)
    (hsilent : ∀ fault, (stepN (k + 1) (start p limits)).status = .failed fault →
      fault.tellsSize p.size = false) :
    stepN (k + 1) (start (p ++ q) limits) = (stepN (k + 1) (start p limits)).extend q := by
  have hsize := congrArg Array.size (Sound.stepN p limits k).code_eq
  rw [stepN_succ] at hsilent
  rw [← hsize] at hinside hsilent
  have htransition := (transition_stepN hrun).extend q hinside hsilent
  rw [stepN_succ, stepN_succ, hsame]
  exact htransition.step_eq hrun (depth_stepN_start p limits k)

theorem stepN_extend (hrun : (stepN k (start p limits)).status = .running) :
    stepN k (start (p ++ q) limits) = (stepN k (start p limits)).extend q := by
  induction k with
  | zero => rfl
  | succ k ih =>
      have hbefore := running_of_le hrun (Nat.le_succ k)
      have hinside : (stepN k (start p limits)).machine.pc < p.size := by
        have hpc := (transition_stepN hbefore).pc_lt (stepN_succ k _ ▸ hrun)
        rwa [(Sound.stepN p limits k).code_eq] at hpc
      refine stepN_succ_extend q hbefore (ih hbefore) hinside fun fault hfailed ↦ ?_
      rw [hrun] at hfailed
      cases hfailed

end

/-- More code behind a program that is running changes nothing else, and neither
does it change the step that ends the program within its own code, unless the
size of the code is what the step faults at. -/
theorem run_extend (p q : Code) (limits : Limits) (k : Nat)
    (hrun : (stepN k (start p limits)).status = .running) :
    stepN k (start (p ++ q) limits) = (stepN k (start p limits)).extend q ∧
      ((stepN k (start p limits)).machine.pc < p.size →
        (∀ fault, (stepN (k + 1) (start p limits)).status = .failed fault →
          fault.tellsSize p.size = false) →
        stepN (k + 1) (start (p ++ q) limits) = (stepN (k + 1) (start p limits)).extend q) := by
  have hsame := stepN_extend q hrun
  refine ⟨hsame, ?_⟩
  intro hinside hsilent
  exact stepN_succ_extend q hrun hsame hinside hsilent

/-- The load is refused with and without an instruction behind it. -/
theorem failed_load_extend :
    (stepN 5 (start storeThenLoad ⟨none, 64⟩)).status = .failed .invalidMemoryOffset ∧
      stepN 5 (start (storeThenLoad ++ #[0x00]) ⟨none, 64⟩) =
        (stepN 5 (start storeThenLoad ⟨none, 64⟩)).extend #[0x00] := by
  have hfailed : (stepN 5 (start storeThenLoad ⟨none, 64⟩)).status =
      .failed .invalidMemoryOffset := by decide +kernel
  obtain ⟨-, hnext⟩ := run_extend storeThenLoad #[0x00] ⟨none, 64⟩ 4 (by decide +kernel)
  refine ⟨hfailed, hnext (by decide +kernel) fun fault hfault ↦ ?_⟩
  rw [hfailed] at hfault
  cases hfault
  rfl

end Execution

end WordMachine
