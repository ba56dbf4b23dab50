import WordMachine.Proofs.Reachable

/-!
# The footprint of a step

What a step can change of control and of memory.  Control goes to the instruction
behind, past the immediate, unless a jump is taken; then it goes where the word on
top says, and that is a marked position.  Memory is seen as a byte at every
address, zero beyond the size, so that growth changes the size and no byte: only a
store changes bytes, and only those that it names.
-/

namespace WordMachine

namespace Outcome

variable {m : Memory} {o : Outcome} {place value extent : Word}

theorem toOffset_eq_ok {offset : Nat} (h : place.toOffset = .ok offset) :
    place.toNat = offset := by
  unfold Word.toOffset at h
  split at h
  · next hsize =>
      cases h
      exact Word.toSize?_eq_some hsize
  · cases h

theorem byteAt_ofLoad (h : ofLoad m place = .ok o) (address : Nat) :
    o.memory.byteAt address = m.byteAt address := by
  obtain ⟨offset, -, h⟩ := Fault.bind_eq_ok_iff.mp h
  obtain ⟨⟨bytes, after⟩, hread, h⟩ := Fault.bind_eq_ok_iff.mp h
  obtain ⟨value, -, h⟩ := Fault.bind_eq_ok_iff.mp h
  obtain ⟨size, -, -, rfl⟩ := Memory.read_eq_ok hread
  cases h
  exact Memory.byteAt_growTo _ _ _

theorem byteAt_ofStore {width : Nat} (h : ofStore m place value width = .ok o) {address : Nat}
    (houtside : address < place.toNat ∨ place.toNat + width ≤ address) :
    o.memory.byteAt address = m.byteAt address := by
  obtain ⟨offset, hoffset, h⟩ := Fault.bind_eq_ok_iff.mp h
  obtain ⟨after, hwrite, h⟩ := Fault.bind_eq_ok_iff.mp h
  obtain ⟨size, -, rfl⟩ := Memory.write_eq_ok hwrite
  rw [toOffset_eq_ok hoffset] at houtside
  cases h
  dsimp only
  rw [Memory.byteAt_overwrite_of_outside _ _ _ (by rwa [Memory.length_fit]),
    Memory.byteAt_growTo]

theorem byteAt_ofPayload {flow : List UInt8 → Flow} (h : ofPayload m place extent flow = .ok o)
    (address : Nat) : o.memory.byteAt address = m.byteAt address := by
  obtain ⟨offset, -, h⟩ := Fault.bind_eq_ok_iff.mp h
  obtain ⟨length, -, h⟩ := Fault.bind_eq_ok_iff.mp h
  obtain ⟨⟨bytes, after⟩, hread, h⟩ := Fault.bind_eq_ok_iff.mp h
  obtain ⟨size, -, -, rfl⟩ := Memory.readRange_eq_ok hread
  cases h
  exact Memory.byteAt_growTo _ _ _

end Outcome

namespace Operation

variable {op : Operation} {m : Machine} {operands : List Word} {o : Outcome}

/-- The addresses at which an operation that finds these words on the stack may
change the byte. -/
def Writes : Operation → List Word → Nat → Prop
  | mstore, place :: _, address => place.toNat ≤ address ∧ address < place.toNat + 32
  | mstore8, place :: _, address => address = place.toNat
  | _, _, _ => False

theorem memory_of_outcome (hlength : operands.length = op.inputs)
    (h : op.outcome m operands = .ok o) (haccess : op.accessesMemory = false) :
    o.memory = m.memory := by
  refine outcome_cases m
    (motive := fun op _ r ↦ ∀ o, r = .ok o → op.accessesMemory = false → o.memory = m.memory)
    ?stop ?unary ?binary ?ternary ?pop ?mload ?mstore ?mstore8 ?jump ?pass ?branch ?pc ?msize
    ?jumpdest ?push ?dup_zero ?dup ?swap_zero ?swap ?ret ?revert hlength o h haccess
  case stop | unary | binary | ternary | pop | pass | pc | msize | jumpdest | dup | swap =>
    intros
    cases ‹_ = Except.ok _›
    rfl
  case mload | mstore | mstore8 | ret | revert =>
    intros
    contradiction
  case jump =>
    intro destination o h _
    obtain ⟨target, -, rfl⟩ := Outcome.ofJump_eq_ok h
    rfl
  case branch =>
    intro destination condition _ o h _
    obtain ⟨target, -, rfl⟩ := Outcome.ofJump_eq_ok h
    rfl
  case push =>
    intro width o h _
    obtain ⟨value, -, rfl⟩ := Outcome.ofImmediate_eq_ok h
    rfl
  case dup_zero => exact nofun
  case swap_zero => exact nofun

theorem byteAt_of_outcome (hlength : operands.length = op.inputs)
    (h : op.outcome m operands = .ok o) {address : Nat} {below : List Word}
    (hoff : ¬op.Writes (operands ++ below) address) :
    o.memory.byteAt address = m.memory.byteAt address := by
  cases haccess : op.accessesMemory with
  | false => rw [memory_of_outcome hlength h haccess]
  | true =>
      match op, operands, hlength with
      | .mload, [place], _ => exact Outcome.byteAt_ofLoad h address
      | .mstore, [place, value], _ =>
          refine Outcome.byteAt_ofStore h ?_
          simp only [Writes, List.cons_append] at hoff
          omega
      | .mstore8, [place, value], _ =>
          refine Outcome.byteAt_ofStore h ?_
          simp only [Writes, List.cons_append] at hoff
          omega
      | .ret, [place, extent], _ => exact Outcome.byteAt_ofPayload h address
      | .revert, [place, extent], _ => exact Outcome.byteAt_ofPayload h address

/-! ## Effects -/

variable {after : Machine} {flow : Flow}

theorem branches_of_next (h : op.effect m = .ok (.next, after)) :
    op.branches m.stack.words = false := by
  obtain ⟨operands, below, o, hwords, hlength, houtcome, -, hflow, -⟩ := effect_eq_ok h
  rw [hwords]
  exact (outcome_directed hlength houtcome).next hflow.symm below

theorem jump_of_effect {target : Nat} (h : op.effect m = .ok (.jump target, after)) :
    ∃ destination below, m.stack.words = destination :: below ∧
      after.stack.words = m.stack.words.drop op.inputs ∧ target = destination.toNat ∧
      m.code[target]? = some jumpdestByte := by
  obtain ⟨operands, below, o, hwords, hlength, houtcome, -, hflow, rfl⟩ := effect_eq_ok h
  obtain ⟨-, destination, rest, rfl, htarget, hresults⟩ :=
    (outcome_directed hlength houtcome).jump target hflow.symm
  refine ⟨destination, rest ++ below, hwords, ?_, Code.jumpTarget_eq_ok htarget⟩
  rw [hresults, hwords, ← hlength, List.drop_left, List.nil_append]

theorem memory_of_effect (h : op.effect m = .ok (flow, after))
    (haccess : op.accessesMemory = false) : after.memory = m.memory := by
  obtain ⟨operands, below, o, -, hlength, houtcome, -, -, rfl⟩ := effect_eq_ok h
  exact memory_of_outcome hlength houtcome haccess

theorem byteAt_of_effect (h : op.effect m = .ok (flow, after)) {address : Nat}
    (hoff : ¬op.Writes m.stack.words address) :
    after.memory.byteAt address = m.memory.byteAt address := by
  obtain ⟨operands, below, o, hwords, hlength, houtcome, -, -, rfl⟩ := effect_eq_ok h
  rw [hwords] at hoff
  exact byteAt_of_outcome hlength houtcome hoff

end Operation

namespace Execution

variable {e next : Execution}

/-- What the step from `e` to `next` can have changed of control and of memory. -/
structure Footprint (e next : Execution) : Prop where
  on : next.status = .running → e.machine.jumps = false →
    ∃ op, e.machine.currentOperation? = some op ∧
      next.machine.pc = e.machine.pc + 1 + op.immediateSize
  jump : next.status = .running → e.machine.jumps = true →
    ∃ op destination below, e.machine.currentOperation? = some op ∧
      e.machine.stack.words = destination :: below ∧
      next.machine.stack.words = e.machine.stack.words.drop op.inputs ∧
      next.machine.pc = destination.toNat ∧
      e.machine.code[next.machine.pc]? = some Operation.jumpdestByte
  halt : next.status ≠ .running → next.machine.pc = e.machine.pc
  bytes : ∀ address, next.machine.memory.byteAt address ≠ e.machine.memory.byteAt address →
    ∃ op, e.machine.currentOperation? = some op ∧ op.Writes e.machine.stack.words address
  size : next.machine.memory.size ≠ e.machine.memory.size →
    ∃ op, e.machine.currentOperation? = some op ∧ op.accessesMemory = true

/-- A step that ends the run without an operation's effect changes the status at
most. -/
theorem Footprint.of_machine_eq (hmachine : next.machine = e.machine)
    (hstatus : next.status ≠ .running) : Footprint e next where
  on := fun h ↦ absurd h hstatus
  jump := fun h ↦ absurd h hstatus
  halt := fun _ ↦ congrArg Machine.pc hmachine
  bytes := fun _ h ↦ absurd (by rw [hmachine]) h
  size := fun h ↦ absurd (by rw [hmachine]) h

theorem Transition.footprint (h : Transition e next) (hrun : e.status = .running) :
    Footprint e next := by
  cases h with
  | ended | exhausted | invalid | faulted => exact .of_machine_eq rfl nofun
  | @performed byte op flow after hbyte hlimit hop heffect =>
      have hcurrent := Machine.currentOperation?_eq_some hbyte hop
      have hjumps := Machine.jumps_eq_branches hcurrent
      have hpc := Operation.pc_of_effect heffect
      refine ⟨?on, ?jump, ?halt, ?bytes, ?size⟩
      case on =>
        intro hnext hstays
        cases flow with
        | next => exact ⟨op, hcurrent, congrArg (· + 1 + op.immediateSize) hpc⟩
        | jump target =>
            rw [hjumps, Operation.branches_of_effect heffect] at hstays
            cases hstays
        | stop | ret | revert => cases hnext
      case jump =>
        intro hnext hleaves
        cases flow with
        | next =>
            rw [hjumps, Operation.branches_of_next heffect] at hleaves
            cases hleaves
        | jump target =>
            obtain ⟨destination, below, htaken⟩ := Operation.jump_of_effect heffect
            exact ⟨op, destination, below, hcurrent, htaken⟩
        | stop | ret | revert => cases hnext
      case halt =>
        intro hends
        cases flow with
        | next | jump => exact absurd hrun hends
        | stop | ret | revert => exact hpc
      case bytes =>
        intro address hchanged
        refine ⟨op, hcurrent, Classical.byContradiction fun hoff ↦ hchanged ?_⟩
        rw [memory_follow]
        exact Operation.byteAt_of_effect heffect hoff
      case size =>
        intro hchanged
        refine ⟨op, hcurrent, (Bool.eq_false_or_eq_true _).resolve_right fun hidle ↦ hchanged ?_⟩
        rw [memory_follow]
        exact congrArg Memory.size (Operation.memory_of_effect heffect hidle)

/-- Every step of a run keeps to its footprint. -/
theorem step_footprint (code : Code) (limits : Limits) (k : Nat)
    (hrun : (stepN k (start code limits)).status = .running) :
    Footprint (stepN k (start code limits)) (stepN (k + 1) (start code limits)) := by
  rw [stepN_succ]
  exact (transition_stepN hrun).footprint hrun

/-- Stores 42 at 0, and jumps over a byte to its last. -/
def storeThenJump : Code := #[0x60, 0x2a, 0x60, 0x00, 0x52, 0x60, 0x09, 0x56, 0x00, 0x5b]

/-- The last byte of the word at 0 is changed by the store, and control goes to 9,
which lies on top of the stack. -/
theorem step_footprint_storeThenJump :
    (stepN 3 (start storeThenJump ⟨none, 32⟩)).machine.memory.byteAt 31 = 42 ∧
      (∃ op, (stepN 2 (start storeThenJump ⟨none, 32⟩)).machine.currentOperation? = some op ∧
        op.Writes (stepN 2 (start storeThenJump ⟨none, 32⟩)).machine.stack.words 31) ∧
      ∃ destination below,
        (stepN 4 (start storeThenJump ⟨none, 32⟩)).machine.stack.words = destination :: below ∧
          (stepN 5 (start storeThenJump ⟨none, 32⟩)).machine.pc = destination.toNat := by
  have hstore := step_footprint storeThenJump ⟨none, 32⟩ 2 (by decide +kernel)
  have hjump := step_footprint storeThenJump ⟨none, 32⟩ 4 (by decide +kernel)
  obtain ⟨-, destination, below, -, hwords, -, hpc, -⟩ :=
    hjump.jump (by decide +kernel) (by decide +kernel)
  exact ⟨by decide +kernel, hstore.bytes 31 (by decide +kernel), destination, below, hwords, hpc⟩

end Execution

end WordMachine
