import WordMachine.Proofs.ListingEntries
import WordMachine.Proofs.OperationTable

/-!
# Decoding

Execution and listing read the same code in their own ways: one checks at every
instruction that its immediate is there, the other takes what there is.  A run
whose jumps keep to the listing never leaves it, and at each entry the step does
what the entry shows.  Jumps have to be told so, since a byte within an immediate
may look like a destination.
-/

namespace WordMachine

namespace Instruction

variable {code : Code} {i : Instruction}

theorem immediateWidth_of_some {op : Operation} (h : Operation.ofByte? i.opcode = some op) :
    immediateWidth i.opcode = op.immediateSize := by
  rw [immediateWidth, h]

theorem immediateWidth_le (i : Instruction) : immediateWidth i.opcode ≤ 32 := by
  cases hop : Operation.ofByte? i.opcode with
  | none =>
      rw [immediateWidth, hop]
      exact Nat.zero_le 32
  | some op =>
      rw [immediateWidth_of_some hop]
      exact Operation.immediateSize_le_of_encodable (Operation.encodable_of_ofByte? hop)

theorem ReadFrom.pc_lt (h : i.ReadFrom code.toList) : i.pc < code.size := by
  have hlt := (List.getElem?_eq_some_iff.mp h.opcode).1
  rwa [Array.length_toList] at hlt

theorem ReadFrom.short_iff (h : i.ReadFrom code.toList) :
    i.immediate.length < immediateWidth i.opcode ↔
      code.size ≤ i.pc + immediateWidth i.opcode := by
  have hpc := h.pc_lt
  rw [h.immediate, List.length_take, List.length_drop, Array.length_toList]
  omega

/-- The immediate that execution reads is the one that is listed. -/
theorem ReadFrom.immediate_eq (h : i.ReadFrom code.toList)
    (hfull : immediateWidth i.opcode ≤ i.immediate.length) :
    code.immediate i.pc (immediateWidth i.opcode) = Word.ofBytes i.immediate := by
  have hinside : i.pc + immediateWidth i.opcode < code.size := by
    apply Nat.lt_of_not_le
    intro hcut
    exact Nat.not_lt_of_le hfull (h.short_iff.mpr hcut)
  have hbytes : (code.extract (i.pc + 1) (i.pc + immediateWidth i.opcode + 1)).toList =
      i.immediate := by
    have hwidth : i.pc + immediateWidth i.opcode + 1 - (i.pc + 1) = immediateWidth i.opcode := by
      omega
    rw [Array.toList_extract, List.extract_eq_take_drop, hwidth, h.immediate]
  rw [Code.immediate, if_pos hinside, hbytes]

theorem ReadFrom.immediate_of_short (h : i.ReadFrom code.toList)
    (hshort : i.immediate.length < immediateWidth i.opcode) :
    code.immediate i.pc (immediateWidth i.opcode) =
      .error (.pcOutOfBounds (i.pc + immediateWidth i.opcode)) :=
  if_neg (Nat.not_lt_of_le (h.short_iff.mp hshort))

theorem ReadFrom.exists_value (h : i.ReadFrom code.toList) :
    ∃ value, Word.ofBytes i.immediate = .ok value := by
  have hlength : i.immediate.length ≤ 32 := by
    rw [h.immediate, List.length_take]
    exact Nat.le_trans (Nat.min_le_left _ _) i.immediateWidth_le
  exact ⟨_, Word.ofBytes_of_length_le hlength⟩

variable {m : Machine}

theorem ReadFrom.currentByte? (h : i.ReadFrom m.code.toList) (hpc : i.pc = m.pc) :
    m.currentByte? = some i.opcode := by
  rw [Machine.currentByte?, ← hpc, ← Array.getElem?_toList]
  exact h.opcode

theorem ReadFrom.currentOperation? (h : i.ReadFrom m.code.toList) (hpc : i.pc = m.pc) :
    m.currentOperation? = Operation.ofByte? i.opcode := by
  rw [Machine.currentOperation?, h.currentByte? hpc]
  rfl

end Instruction

namespace Operation

theorem effect_push_of_error {m : Machine} {width : Nat} {fault : Fault}
    (h : m.immediate width = .error fault) : (push width).effect m = .error fault := by
  rw [effect_of_operands (push width) [] m.stack.words rfl rfl, outcome, Outcome.ofImmediate, h]
  rfl

theorem effect_push_of_ok {m : Machine} {width : Nat} {value : Word}
    (h : m.immediate width = .ok value) :
    (push width).effect m = Outcome.place ⟨[value], m.memory, .next⟩ m m.stack.words := by
  rw [effect_of_operands (push width) [] m.stack.words rfl rfl, outcome, Outcome.ofImmediate, h]
  rfl

end Operation

namespace Execution

variable {code : Code} {limits : Limits} {e next : Execution}

/-! ## Keeping to the listing -/

theorem Transition.listed (h : Transition e next) (hrun : e.status = .running)
    (hcode : e.machine.code = code)
    (hpc : e.machine.pc = code.size ∨ Listed code e.machine.pc)
    (hjump : next.status = .running → e.machine.jumps = true → Listed code next.machine.pc) :
    next.machine.pc = code.size ∨ Listed code next.machine.pc := by
  cases h with
  | ended | exhausted | invalid | faulted => exact hpc
  | @performed byte op flow after hbyte hlimit hop heffect =>
      have hinside := pc_lt_of_currentByte? hbyte
      obtain ⟨o, below, hregular, -, rfl, rfl⟩ := Operation.effect_regular heffect
      -- Behind an entry comes the next entry or the end, so only a jump could leave the listing.
      cases hflow : o.flow with
      | next =>
          have hlisted : Listed code e.machine.pc := by
            rw [hcode] at hinside
            exact hpc.resolve_left (Nat.ne_of_lt hinside)
          obtain ⟨i, hi, hat⟩ := hlisted
          have hopcode : i.opcode = byte := by
            have hread := readFrom_of_mem_listing hi
            rw [← hcode] at hread
            exact Option.some.inj ((hread.currentByte? hat).symm.trans hbyte)
          have hfinish : i.finish = e.machine.pc + 1 + op.immediateSize := by
            rw [← hopcode] at hop
            rw [Instruction.finish, hat, Instruction.immediateWidth_of_some hop]
          have hle := hregular.next hflow hinside
          rw [← hfinish, hcode] at hle
          have hnext := listed_finish hi hle
          rw [hfinish] at hnext
          exact hnext
      | jump target =>
          rw [hflow] at heffect hjump
          have hjumps : e.machine.jumps = true := by
            rw [Machine.jumps_eq_branches (Machine.currentOperation?_eq_some hbyte hop)]
            exact Operation.branches_of_effect heffect
          exact .inr (hjump hrun hjumps)
      | stop | ret | revert => exact hpc

theorem listed_stepN {k : Nat}
    (hjumps : ∀ j < k, (stepN j (start code limits)).status = .running →
      (stepN (j + 1) (start code limits)).status = .running →
      (stepN j (start code limits)).machine.jumps = true →
      Listed code (stepN (j + 1) (start code limits)).machine.pc) :
    (stepN k (start code limits)).machine.pc = code.size ∨
      Listed code (stepN k (start code limits)).machine.pc := by
  induction k with
  | zero =>
      rcases listed_zero code with hempty | hlisted
      · exact .inl hempty.symm
      · exact .inr hlisted
  | succ k ih =>
      have hbefore := ih fun j hj ↦ hjumps j (Nat.lt_succ_of_lt hj)
      have hlast := hjumps k (Nat.lt_succ_self k)
      rw [stepN_succ] at hlast ⊢
      by_cases hrun : (stepN k (start code limits)).status = .running
      · exact (transition_stepN hrun).listed hrun (Sound.stepN code limits k).code_eq hbefore
          (hlast hrun)
      · rw [step_of_isTerminal (isTerminal_iff.mpr hrun)]
        exact hbefore

/-! ## What a step makes of an entry -/

/-- The step from `e` to `next` is the one that the listed instruction shows. -/
structure Shows (i : Instruction) (e next : Execution) : Prop where
  invalid : ∀ byte, i.name = "INVALID(0x" ++ Hex.encode [byte] ++ ")" ↔
    next.status = .failed (.invalidOpcode byte)
  cut_short : ∀ width, i.name = "PUSH" ++ toString width →
    (next.status = .failed (.pcOutOfBounds (e.machine.pc + width)) ↔ i.immediate.length < width)
  pushed : ∀ width, i.name = "PUSH" ++ toString width → ¬i.immediate.length < width →
    next.status = .failed .stackOverflow ∧ e.machine.stack.depth = Stack.capacity ∨
      next.status = .running ∧ ∃ value, Word.ofBytes i.immediate = .ok value ∧
        next.machine.stack.words = value :: e.machine.stack.words

section

variable {i : Instruction} (h : Transition e next) (hrun : e.status = .running)
  (hread : i.ReadFrom e.machine.code.toList) (hpc : i.pc = e.machine.pc)
  (hlimit : ∀ limit, next.status ≠ .failed (.stepLimitExceeded limit))

include h hrun hread hpc hlimit

theorem Transition.invalid_iff (byte : UInt8) :
    i.name = "INVALID(0x" ++ Hex.encode [byte] ++ ")" ↔
      next.status = .failed (.invalidOpcode byte) := by
  have hcurrent := hread.currentByte? hpc
  have hop := hread.currentOperation? hpc
  rw [Instruction.name_eq_invalid_iff]
  cases hnone : Operation.ofByte? i.opcode with
  | none =>
      cases h with
      | ended hend => cases hcurrent.symm.trans hend
      | exhausted => exact absurd rfl (hlimit _)
      | invalid hbyte =>
          cases hcurrent.symm.trans hbyte
          simp
      | faulted hbyte _ hsome | performed hbyte _ hsome =>
          cases hcurrent.symm.trans hbyte
          cases hnone.symm.trans hsome
  | some op =>
      rw [hnone] at hop
      rw [h.failed_iff hrun hop hlimit]
      constructor
      · rintro ⟨⟨⟩, -⟩
      · intro hfault
        exact absurd hfault (op.effect_ne_invalidOpcode _ byte)

theorem Transition.push_short {width : Nat}
    (hpush : Operation.ofByte? i.opcode = some (.push width))
    (hshort : i.immediate.length < width) :
    next.status = .failed (.pcOutOfBounds (e.machine.pc + width)) := by
  have hop := hread.currentOperation? hpc
  have hwidth : immediateWidth i.opcode = width := Instruction.immediateWidth_of_some hpush
  have hcut := hread.immediate_of_short (hwidth.symm ▸ hshort)
  rw [hwidth, hpc] at hcut
  rw [h.failed_iff hrun (hop.trans hpush) hlimit]
  exact Operation.effect_push_of_error hcut

theorem Transition.push_full {width : Nat}
    (hdepth : e.machine.stack.depth ≤ Stack.capacity)
    (hpush : Operation.ofByte? i.opcode = some (.push width))
    (hfull : ¬i.immediate.length < width) :
    next.status = .failed .stackOverflow ∧ e.machine.stack.depth = Stack.capacity ∨
      next.status = .running ∧ ∃ value, Word.ofBytes i.immediate = .ok value ∧
        next.machine.stack.words = value :: e.machine.stack.words := by
  have hop := hread.currentOperation? hpc
  have hwidth : immediateWidth i.opcode = width := Instruction.immediateWidth_of_some hpush
  obtain ⟨value, hvalue⟩ := hread.exists_value
  have hfetch := hread.immediate_eq (hwidth.symm ▸ Nat.le_of_not_lt hfull)
  rw [hwidth, hpc, hvalue] at hfetch
  have heffect := Operation.effect_push_of_ok hfetch
  by_cases hroom : e.machine.stack.depth < Stack.capacity
  · right
    rw [Outcome.place_singleton _ _ _ _ hroom] at heffect
    rcases h.effect_cases (hop.trans hpush) hlimit with
      ⟨fault, hfault, -⟩ | ⟨flow, after, hdone, hnext⟩
    · cases heffect.symm.trans hfault
    · cases heffect.symm.trans hdone
      rw [hnext]
      exact ⟨hrun, value, hvalue, rfl⟩
  · left
    rw [Outcome.place_singleton_of_full _ _ _ _ hroom] at heffect
    rw [h.failed_iff hrun (hop.trans hpush) hlimit]
    exact ⟨heffect, Nat.le_antisymm hdepth (Nat.le_of_not_lt hroom)⟩

theorem Transition.shows (hdepth : e.machine.stack.depth ≤ Stack.capacity) : Shows i e next := by
  refine ⟨h.invalid_iff hrun hread hpc hlimit, ?_, ?_⟩
  · intro width hname
    have hpush := Instruction.name_eq_push_iff.mp hname
    constructor
    · intro hcut
      apply Classical.byContradiction
      intro hfull
      rcases h.push_full hrun hread hpc hlimit hdepth hpush hfull with ⟨hover, -⟩ | ⟨hon, -⟩
      · cases hcut.symm.trans hover
      · cases hcut.symm.trans hon
    · exact h.push_short hrun hread hpc hlimit hpush
  · intro width hname
    exact h.push_full hrun hread hpc hlimit hdepth (Instruction.name_eq_push_iff.mp hname)

end

/-- A run that jumps to listed instructions only stays on the listing, and where
an instruction is listed the step does what the listing shows. -/
theorem decode_alike (code : Code) (limits : Limits) (k : Nat) :
    ((∀ j < k, (stepN j (start code limits)).status = .running →
        (stepN (j + 1) (start code limits)).status = .running →
        (stepN j (start code limits)).machine.jumps = true →
        Listed code (stepN (j + 1) (start code limits)).machine.pc) →
      (stepN k (start code limits)).machine.pc = code.size ∨
        Listed code (stepN k (start code limits)).machine.pc) ∧
    ∀ i ∈ listing code, i.pc = (stepN k (start code limits)).machine.pc →
      (stepN k (start code limits)).status = .running →
      (∀ limit, (stepN (k + 1) (start code limits)).status ≠ .failed (.stepLimitExceeded limit)) →
      Shows i (stepN k (start code limits)) (stepN (k + 1) (start code limits)) := by
  refine ⟨listed_stepN, ?_⟩
  intro i hi hpc hrun hlimit
  have hsound := Sound.stepN code limits k
  have hread := readFrom_of_mem_listing hi
  rw [← hsound.code_eq] at hread
  rw [stepN_succ] at hlimit ⊢
  exact (transition_stepN hrun).shows hrun hread hpc hlimit hsound.depth_le

/-- Jumps over a byte without an operation to a push whose immediate is cut off. -/
def jumpOver : Code := #[0x60, 0x04, 0x56, 0xfe, 0x5b, 0x61, 0xab]

theorem decode_alike_jumpOver :
    (stepN 3 (start jumpOver ⟨none, 0⟩)).machine.pc = 5 ∧ Listed jumpOver 5 ∧
      (stepN 4 (start jumpOver ⟨none, 0⟩)).status = .failed (.pcOutOfBounds 7) ∧
      (stepN 1 (start #[0xfe] ⟨none, 0⟩)).status = .failed (.invalidOpcode 0xfe) := by
  have hpc : (stepN 3 (start jumpOver ⟨none, 0⟩)).machine.pc = 5 := by decide +kernel
  obtain ⟨hlisted, hentries⟩ := decode_alike jumpOver ⟨none, 0⟩ 3
  have hshows := hentries ⟨5, 0x61, [0xab]⟩ (by decide +kernel) hpc.symm (by decide +kernel) (by
    intro limit hlimit
    cases ((Sound.stepN jumpOver ⟨none, 0⟩ 4).cut_off limit hlimit).1)
  obtain ⟨-, hsingle⟩ := decode_alike #[0xfe] ⟨none, 0⟩ 0
  have hinvalid := hsingle ⟨0, 0xfe, []⟩ (by decide +kernel) rfl rfl (by
    intro limit hlimit
    cases ((Sound.stepN #[0xfe] ⟨none, 0⟩ 1).cut_off limit hlimit).1)
  refine ⟨hpc, ?_, ?_, ?_⟩
  · have hon := hlisted (by decide +kernel)
    rw [hpc] at hon
    exact hon.resolve_left (by decide)
  · have hcut := (hshows.cut_short 2 (by decide +kernel)).mpr (by decide)
    rw [hpc] at hcut
    exact hcut
  · exact (hinvalid.invalid 0xfe).mp (by decide +kernel)

end Execution

end WordMachine
