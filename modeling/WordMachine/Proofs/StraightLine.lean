import WordMachine.Proofs.Decoding
import WordMachine.Proofs.Footprint
import WordMachine.Proofs.Schedule

/-!
# Straight-line programs

A program in whose listing no jump stands is executed as it is listed, from the
first instruction on, up to a fault, a halt or the end of the code.  Nothing but
the listing bounds the run: what is listed ahead of the program counter loses its
first entry with every step.  The bytes of jumps may still occur within
immediates, where control never comes.
-/

namespace WordMachine

theorem length_listingFrom_le (pc : Nat) (bytes : List UInt8) :
    (listingFrom pc bytes).length ≤ bytes.length := by
  fun_induction listingFrom pc bytes with
  | case1 => exact Nat.le_refl 0
  | case2 pc opcode rest width ih =>
      rw [List.length_drop] at ih
      simp only [List.length_cons]
      omega

namespace Instruction

/-- The instruction is listed neither as a jump nor as a conditional one. -/
def Straight (i : Instruction) : Prop := i.name ≠ "JUMP" ∧ i.name ≠ "JUMPI"

instance (i : Instruction) : Decidable i.Straight :=
  inferInstanceAs (Decidable (_ ∧ _))

theorem Straight.branches {i : Instruction} (h : i.Straight) {op : Operation}
    (hop : Operation.ofByte? i.opcode = some op) (words : List Word) :
    op.branches words = false := by
  have hname := name_of_some hop
  cases op with
  | jump => exact absurd hname h.1
  | jumpi => exact absurd hname h.2
  | _ => rfl

end Instruction

namespace Execution

variable {code : Code} {limits : Limits} {e next : Execution} {i : Instruction}
  {later : List Instruction}

/-- The positions of the instructions that the next `k` steps begin.  A step that
is not counted begins none. -/
def begun : Nat → Execution → List Nat
  | 0, _ => []
  | k + 1, e =>
    if e.steps < e.step.steps then e.machine.pc :: begun k e.step else begun k e.step

/-- The instructions that are listed from the program counter on. -/
def ahead (e : Execution) : List Instruction :=
  listingFrom e.machine.pc (e.machine.code.toList.drop e.machine.pc)

theorem ahead_start (code : Code) (limits : Limits) : (start code limits).ahead = listing code :=
  rfl

/-! ## One step -/

theorem currentByte?_of_ahead_nil (h : e.ahead = []) : e.machine.currentByte? = none := by
  have hdrop := listingFrom_eq_nil_iff.mp h
  rw [List.drop_eq_nil_iff, Array.length_toList] at hdrop
  exact Array.getElem?_eq_none hdrop

theorem readFrom_of_ahead (h : e.ahead = i :: later) : i.ReadFrom e.machine.code.toList := by
  apply readFrom_of_mem rfl
  rw [show listingFrom _ _ = i :: later from h]
  exact List.mem_cons_self

/-- The first entry is the instruction to be executed next, and the others are
listed from where it finishes. -/
theorem ahead_eq_cons (h : e.ahead = i :: later) :
    i.pc = e.machine.pc ∧
      later = listingFrom i.finish (e.machine.code.toList.drop i.finish) := by
  unfold ahead at h
  cases hbytes : e.machine.code.toList.drop e.machine.pc with
  | nil =>
      rw [hbytes, listingFrom] at h
      cases h
  | cons opcode rest =>
      rw [hbytes, listingFrom] at h
      obtain ⟨rfl, rfl⟩ := List.cons.inj h
      refine ⟨rfl, ?_⟩
      rw [Instruction.finish, drop_width_of_drop_eq_cons hbytes]

/-- The step that begins the first instruction ahead is counted.  It either leaves
the others ahead or ends the run where it stands. -/
theorem Transition.straight (h : Transition e next) (hrun : e.status = .running)
    (hlimits : e.limits.steps = none) (hcode : next.machine.code = e.machine.code)
    (hahead : e.ahead = i :: later) (hstraight : i.Straight) :
    next.steps = e.steps + 1 ∧ (next.status = .running → next.ahead = later) ∧
      (next.status ≠ .running → next.machine.pc < next.machine.code.size) := by
  obtain ⟨hpc, hlater⟩ := ahead_eq_cons hahead
  have hread := readFrom_of_ahead hahead
  have hbyte := hread.currentByte? hpc
  have hfootprint := h.footprint hrun
  refine ⟨h.steps_of_currentByte? hlimits hbyte, ?_, ?_⟩
  · intro hnext
    have hop := hread.currentOperation? hpc
    have hstays : e.machine.jumps = false := by
      cases hsome : Operation.ofByte? i.opcode with
      | none => rw [Machine.jumps, hop, hsome]
      | some op =>
          rw [Machine.jumps_eq_branches (hop.trans hsome)]
          exact hstraight.branches hsome _
    obtain ⟨op, hcurrent, hon⟩ := hfootprint.on hnext hstays
    have hfinish : next.machine.pc = i.finish := by
      rw [hop] at hcurrent
      rw [hon, Instruction.finish, hpc, Instruction.immediateWidth_of_some hcurrent]
    rw [ahead, hcode, hfinish, hlater]
  · intro hends
    rw [hfootprint.halt hends, hcode]
    exact pc_lt_of_currentByte? hbyte

/-! ## The run -/

/-- The loop from `e` makes `calls` steps and begins the listed instructions in
their order, all of them if it comes to the end of the code. -/
structure Follows (e : Execution) (entries : List Instruction) (calls : Nat) : Prop where
  ends : LoopEnds e calls
  calls_le : calls ≤ entries.length + 1
  begun_prefix : begun calls e <+: entries.map (·.pc)
  steps_eq : (stepN calls e).steps = e.steps + (begun calls e).length
  finished : (stepN calls e).machine.pc = (stepN calls e).machine.code.size →
    begun calls e = entries.map (·.pc)

theorem LoopEnds.succ {calls : Nat} (hrun : e.status = .running) (h : LoopEnds e.step calls) :
    LoopEnds e (calls + 1) := by
  refine ⟨h.1, ?_⟩
  intro j hj
  cases j with
  | zero => exact hrun
  | succ j => exact h.2 j (Nat.lt_of_succ_lt_succ hj)

theorem loopEnds_zero (h : e.status.isTerminal = true) : LoopEnds e 0 := ⟨h, nofun⟩

theorem run_of_loopEnds {calls : Nat} (h : LoopEnds (start code limits) calls)
    (hcalls : calls ≤ limits.steps.getD stepBound + 1) :
    (start code limits).run = stepN calls (start code limits) := by
  rw [run_eq_stepN_budget, budget_start]
  exact stepN_eq_of_le h.1 hcalls

theorem begun_succ_of_counted (h : e.step.steps = e.steps + 1) (k : Nat) :
    begun (k + 1) e = e.machine.pc :: begun k e.step := by
  rw [begun, if_pos (by omega)]

namespace Follows

/-- At the end of the code the loop makes one more step, which begins nothing. -/
theorem ended (hrun : e.status = .running) (hend : e.machine.currentByte? = none) :
    Follows e [] 1 := by
  have hstep : e.step = { e with status := .halted } := by
    rw [step_of_running hrun, hend]
  have hbegun : begun 1 e = [] := by
    rw [begun, hstep, if_neg (Nat.lt_irrefl _), begun]
  refine ⟨(loopEnds_zero ?_).succ hrun, Nat.le_refl 1, ?_, ?_, fun _ ↦ hbegun⟩
  · rw [hstep]
    rfl
  · rw [hbegun]
    exact List.nil_prefix
  · rw [hbegun, stepN, hstep]
    rfl

/-- An instruction that ends the run is the last to be begun. -/
theorem stopped (hrun : e.status = .running) (hpc : i.pc = e.machine.pc)
    (hsteps : e.step.steps = e.steps + 1) (hends : e.step.status ≠ .running)
    (hinside : e.step.machine.pc < e.step.machine.code.size) : Follows e (i :: later) 1 := by
  have hbegun : begun 1 e = [e.machine.pc] := begun_succ_of_counted hsteps 0
  refine ⟨(loopEnds_zero (isTerminal_iff.mpr hends)).succ hrun, Nat.le_add_left 1 _, ?_, ?_, ?_⟩
  · rw [hbegun, List.map_cons, hpc]
    exact ⟨_, rfl⟩
  · rw [hbegun]
    exact hsteps
  · intro hpc
    exact absurd hpc (Nat.ne_of_lt hinside)

theorem cons {calls : Nat} (hrun : e.status = .running) (hpc : i.pc = e.machine.pc)
    (hsteps : e.step.steps = e.steps + 1) (h : Follows e.step later calls) :
    Follows e (i :: later) (calls + 1) := by
  have hbegun := begun_succ_of_counted hsteps calls
  refine ⟨h.ends.succ hrun, Nat.succ_le_succ h.calls_le, ?_, ?_, ?_⟩
  · rw [hbegun, List.map_cons, hpc]
    exact (List.prefix_cons_inj _).mpr h.begun_prefix
  · rw [hbegun, List.length_cons, stepN, h.steps_eq, hsteps]
    omega
  · intro hend
    rw [hbegun, List.map_cons, hpc, h.finished hend]

end Follows

/-- By induction on the instructions ahead, which are the measure of the run. -/
theorem exists_follows {entries : List Instruction} (hlimits : limits.steps = none)
    (hsound : Sound code limits e) (hrun : e.status = .running) (hahead : e.ahead = entries)
    (hstraight : ∀ i ∈ entries, i.Straight) : ∃ calls, Follows e entries calls := by
  induction entries generalizing e with
  | nil => exact ⟨1, .ended hrun (currentByte?_of_ahead_nil hahead)⟩
  | cons i later ih =>
      have htransition := transition_step hrun hsound.depth_le
      have hnext := hsound.transition hrun htransition
      have hcode : e.step.machine.code = e.machine.code := hnext.code_eq.trans hsound.code_eq.symm
      have hnone : e.limits.steps = none := hsound.limits_eq ▸ hlimits
      obtain ⟨hpc, -⟩ := ahead_eq_cons hahead
      obtain ⟨hsteps, hon, hstop⟩ := htransition.straight hrun hnone hcode hahead
        (hstraight i List.mem_cons_self)
      by_cases hgoes : e.step.status = .running
      · obtain ⟨calls, hfollows⟩ := ih hnext hgoes (hon hgoes)
          fun j hj ↦ hstraight j (List.mem_cons_of_mem i hj)
        exact ⟨calls + 1, hfollows.cons hrun hpc hsteps⟩
      · exact ⟨1, .stopped hrun hpc hsteps hgoes (hstop hgoes)⟩

/-- Without jumps in its listing, and without a step limit, a program runs to an
end; the instructions that it begins are the first of the listing, in order, and
all of them if the end of the code is reached. -/
theorem run_follows_listing (code : Code) (memory : Nat)
    (hstraight : ∀ i ∈ listing code, i.name ≠ "JUMP" ∧ i.name ≠ "JUMPI") :
    ∃ calls, LoopEnds (start code ⟨none, memory⟩) calls ∧
      begun calls (start code ⟨none, memory⟩) <+: (listing code).map (·.pc) ∧
      (stepN calls (start code ⟨none, memory⟩)).steps =
        (begun calls (start code ⟨none, memory⟩)).length ∧
      (stepN calls (start code ⟨none, memory⟩)).steps ≤ (listing code).length ∧
      ((stepN calls (start code ⟨none, memory⟩)).machine.pc = code.size →
        (stepN calls (start code ⟨none, memory⟩)).steps = (listing code).length) ∧
      (code.size ≤ stepBound →
        (start code ⟨none, memory⟩).run = stepN calls (start code ⟨none, memory⟩)) := by
  have hsound := Sound.start code ⟨none, memory⟩
  obtain ⟨calls, hfollows⟩ := exists_follows rfl hsound rfl (ahead_start code _) hstraight
  have hsteps := hfollows.steps_eq.trans (Nat.zero_add _)
  refine ⟨calls, hfollows.ends, hfollows.begun_prefix, hsteps, ?_, ?_, ?_⟩
  · have hle := hfollows.begun_prefix.length_le
    rw [List.length_map] at hle
    rw [hsteps]
    exact hle
  · intro hend
    have hsize := congrArg Array.size (Sound.stepN code ⟨none, memory⟩ calls).code_eq
    rw [hsteps, hfollows.finished (hend.trans hsize.symm), List.length_map]
  · intro hsize
    have hlisted : (listing code).length ≤ code.size := by
      rw [← Array.length_toList]
      exact length_listingFrom_le 0 code.toList
    apply run_of_loopEnds hfollows.ends
    rw [Option.getD_none]
    exact Nat.le_trans hfollows.calls_le (Nat.succ_le_succ (Nat.le_trans hlisted hsize))

/-- Pushes bytes that would be jumps, and adds them. -/
def pushedJumps : Code := #[0x61, 0x56, 0x57, 0x60, 0x56, 0x01]

theorem run_follows_listing_pushedJumps :
    (∀ i ∈ listing pushedJumps, i.name ≠ "JUMP" ∧ i.name ≠ "JUMPI") ∧
      (listing pushedJumps).map (·.pc) = [0, 3, 5] ∧
      ∃ calls, LoopEnds (start pushedJumps ⟨none, 0⟩) calls ∧
        begun calls (start pushedJumps ⟨none, 0⟩) <+: [0, 3, 5] ∧
        (start pushedJumps ⟨none, 0⟩).run = stepN calls (start pushedJumps ⟨none, 0⟩) := by
  have hstraight : ∀ i ∈ listing pushedJumps, i.name ≠ "JUMP" ∧ i.name ≠ "JUMPI" := by
    decide +kernel
  have hlisting : (listing pushedJumps).map (·.pc) = [0, 3, 5] := by decide +kernel
  obtain ⟨calls, hends, hprefix, -, -, -, hrun⟩ := run_follows_listing pushedJumps 0 hstraight
  rw [hlisting] at hprefix
  exact ⟨hstraight, hlisting, calls, hends, hprefix, hrun (by decide +kernel)⟩

end Execution

end WordMachine
