import WordMachine.Proofs.Reachable

/-!
# The operation table

The table says how many words an operation needs, and carrying the operation out
does not look there.  Here the two are compared: an operation that a byte encodes
lacks operands exactly when there are fewer words than inputs, it finds the stack
full exactly when it adds a word to a stack of full depth, and otherwise it
changes the depth by a number that depends on nothing but the operation.
-/

namespace WordMachine

namespace Operation

variable {op : Operation} {m after : Machine} {flow : Flow} {operands : List Word}

/-- The widths and the depths that a byte can encode. -/
def encodable : Operation → Bool
  | push width => 0 < width && width ≤ 32
  | dup position => 0 < position && position ≤ 16
  | swap distance => 0 < distance && distance ≤ 16
  | _ => true

theorem encodable_of_ofByte? {byte : UInt8} (h : ofByte? byte = some op) :
    op.encodable = true := by
  unfold ofByte? at h
  split at h
  case h_38 n _ =>
    split at h
    · next hpush =>
        cases h
        simp only [encodable, Bool.and_eq_true, decide_eq_true_eq]
        omega
    · split at h
      · next hdup =>
          cases h
          simp only [encodable, Bool.and_eq_true, decide_eq_true_eq]
          omega
      · split at h
        · next hswap =>
            cases h
            simp only [encodable, Bool.and_eq_true, decide_eq_true_eq]
            omega
        · cases h
  all_goals
    cases h
    rfl

theorem encodable_of_currentOperation? (h : m.currentOperation? = some op) :
    op.encodable = true := by
  obtain ⟨byte, -, hbyte⟩ := Option.bind_eq_some_iff.mp h
  exact encodable_of_ofByte? hbyte

theorem inputs_le_of_encodable (h : op.encodable = true) : op.inputs ≤ 17 := by
  cases op with
  | dup position | swap distance =>
      simp only [encodable, Bool.and_eq_true, decide_eq_true_eq] at h
      simp only [inputs]
      omega
  | _ => simp [inputs]

theorem immediateSize_le_of_encodable (h : op.encodable = true) : op.immediateSize ≤ 32 := by
  cases op with
  | push width =>
      simp only [encodable, Bool.and_eq_true, decide_eq_true_eq] at h
      exact h.2
  | _ => simp [immediateSize]

/-! ## The depth of the stack -/

/-- The number of words that take the place of the inputs. -/
def outputs : Operation → Nat
  | unary _ | binary _ | ternary _ | mload | pc | msize | push _ => 1
  | dup position => position + 1
  | swap distance => distance + 1
  | stop | pop | mstore | mstore8 | jump | jumpi | jumpdest | ret | revert => 0

def depthChange : Operation → Int
  | push _ | dup _ | pc | msize => 1
  | swap _ | jumpdest | stop | mload | unary _ => 0
  | binary _ | pop | jump => -1
  | ternary _ | jumpi | mstore | mstore8 | ret | revert => -2

theorem inputs_add_depthChange (op : Operation) :
    (op.inputs : Int) + op.depthChange = op.outputs := by
  cases op <;> simp only [inputs, depthChange, outputs] <;> omega

theorem length_results {o : Outcome} (hlength : operands.length = op.inputs)
    (h : op.outcome m operands = .ok o) : o.results.length = op.outputs := by
  refine outcome_cases m (motive := fun op _ r ↦ ∀ o, r = .ok o → o.results.length = op.outputs)
    ?stop ?unary ?binary ?ternary ?pop ?mload ?mstore ?mstore8 ?jump ?pass ?branch ?pc ?msize
    ?jumpdest ?push ?dup_zero ?dup ?swap_zero ?swap ?ret ?revert hlength o h
  case stop | unary | binary | ternary | pop | pass | pc | msize | jumpdest =>
    intros
    cases ‹_ = Except.ok _›
    rfl
  case mload =>
    intro place o h
    obtain ⟨value, after, -, rfl⟩ := Outcome.ofLoad_eq_ok h
    rfl
  case mstore | mstore8 =>
    intro place value o h
    obtain ⟨after, -, rfl⟩ := Outcome.ofStore_eq_ok h
    rfl
  case jump =>
    intro destination o h
    obtain ⟨target, -, rfl⟩ := Outcome.ofJump_eq_ok h
    rfl
  case branch =>
    intro destination condition _ o h
    obtain ⟨target, -, rfl⟩ := Outcome.ofJump_eq_ok h
    rfl
  case push =>
    intro width o h
    obtain ⟨value, -, rfl⟩ := Outcome.ofImmediate_eq_ok h
    rfl
  case dup_zero => exact nofun
  case swap_zero => exact nofun
  case dup =>
    rintro above w o ⟨⟩
    simp [outputs]
  case swap =>
    rintro top above w o ⟨⟩
    simp [outputs]
  case ret | revert =>
    intro place extent o h
    obtain ⟨payload, after, -, rfl⟩ := Outcome.ofPayload_eq_ok h
    rfl

theorem depth_of_effect (h : op.effect m = .ok (flow, after)) :
    (after.stack.depth : Int) = m.stack.depth + op.depthChange := by
  obtain ⟨operands, below, o, hwords, hlength, houtcome, -, -, rfl⟩ := effect_eq_ok h
  have hresults : o.results.length = op.outputs := length_results hlength houtcome
  have hchange := op.inputs_add_depthChange
  simp only [Stack.depth, hwords, List.length_append]
  omega

/-! ## Faults of the stack -/

theorem effect_underflow_iff (hop : op.encodable = true) :
    op.effect m = .error .stackUnderflow ↔ m.stack.depth < op.inputs := by
  constructor
  · intro h
    rcases effect_eq_error h with ⟨hlt, -⟩ | ⟨operands, below, -, hlength, houtcome | ⟨hfault, -⟩⟩
    · exact hlt
    · -- Enough operands are never refused for being too few.
      cases outcome_eq_error hlength houtcome with
      | jump htarget | branch _ htarget =>
          rcases Code.jumpTarget_eq_error htarget with ⟨hfault, -⟩ | ⟨hfault, -⟩ <;> cases hfault
      | immediate hvalue =>
          rcases Code.immediate_eq_error hvalue with ⟨hfault, -⟩ | ⟨hfault, -⟩ <;> cases hfault
      | dup_zero | swap_zero => cases hop
    · cases hfault
  · exact effect_of_lt

/-- The operations that leave one word more than they found; a push does if its
immediate is all there. -/
def Deepens (m : Machine) (op : Operation) : Prop :=
  op = pc ∨ op = msize ∨ (∃ position, op = dup position) ∨
    ∃ width, op = push width ∧ m.pc + width < m.code.size

theorem deepens_of_outcome {o : Outcome} (h : op.outcome m operands = .ok o)
    (hchange : 0 < op.depthChange) : op.Deepens m := by
  cases op with
  | pc => exact .inl rfl
  | msize => exact .inr (.inl rfl)
  | dup position => exact .inr (.inr (.inl ⟨position, rfl⟩))
  | push width =>
      obtain ⟨value, hvalue, -⟩ := Outcome.ofImmediate_eq_ok h
      exact .inr (.inr (.inr ⟨width, rfl, Code.immediate_eq_ok hvalue⟩))
  | _ => simp [depthChange] at hchange

theorem Deepens.depthChange (h : op.Deepens m) : op.depthChange = 1 := by
  rcases h with rfl | rfl | ⟨position, rfl⟩ | ⟨width, rfl, -⟩ <;> rfl

theorem Deepens.exists_outcome (h : op.Deepens m) (hop : op.encodable = true)
    (hlength : operands.length = op.inputs) : ∃ o, op.outcome m operands = .ok o := by
  cases houtcome : op.outcome m operands with
  | ok o => exact ⟨o, rfl⟩
  | error fault =>
      exfalso
      cases outcome_eq_error hlength houtcome with
      | access haccess =>
          rcases h with rfl | rfl | ⟨position, rfl⟩ | ⟨width, rfl, -⟩ <;> cases haccess
      | jump | branch => rcases h with h | h | ⟨position, h⟩ | ⟨width, h, -⟩ <;> cases h
      | immediate hvalue =>
          rcases h with h | h | ⟨position, h⟩ | ⟨width, h, hinside⟩ <;> cases h
          simp only [encodable, Bool.and_eq_true, decide_eq_true_eq] at hop
          rcases Code.immediate_eq_error hvalue with ⟨-, hcut⟩ | ⟨-, hwide⟩
          · exact Nat.not_lt_of_le hcut hinside
          · exact Nat.not_lt_of_le hop.2 hwide
      | dup_zero | swap_zero => cases hop

theorem effect_overflow_iff (hop : op.encodable = true)
    (hdepth : m.stack.depth ≤ Stack.capacity) :
    op.effect m = .error .stackOverflow ↔
      m.stack.depth = Stack.capacity ∧ op.Deepens m := by
  have hchange := op.inputs_add_depthChange
  constructor
  · intro h
    rcases effect_eq_error h with ⟨-, hfault⟩ | ⟨operands, below, hwords, hlength, hcause⟩
    · cases hfault
    · rcases hcause with houtcome | ⟨-, o, houtcome, hfull⟩
      · cases (outcome_eq_error hlength houtcome).ofOperands
      · have hresults : o.results.length = op.outputs := length_results hlength houtcome
        simp only [Stack.depth, hwords, List.length_append] at hdepth hfull ⊢
        have hdeepens : op.Deepens m := deepens_of_outcome houtcome (by omega)
        have hone := hdeepens.depthChange
        exact ⟨by omega, hdeepens⟩
  · rintro ⟨hfull, hdeepens⟩
    have hinputs : op.inputs ≤ m.stack.depth := by
      have hle := inputs_le_of_encodable hop
      rw [hfull, Stack.capacity]
      omega
    obtain ⟨operands, below, hwords, hlength⟩ := exists_operands hinputs
    obtain ⟨o, houtcome⟩ := hdeepens.exists_outcome hop hlength
    have hresults : o.results.length = op.outputs := length_results hlength houtcome
    have hone := hdeepens.depthChange
    have hover : ¬(o.results ++ below).length ≤ Stack.capacity := by
      simp only [Stack.depth, hwords, List.length_append] at hfull ⊢
      omega
    rw [effect_of_operands op operands below hwords hlength, houtcome, Fault.ok_bind,
      Outcome.place, if_neg hover]

end Operation

namespace Execution

/-- A step faults as the effect of its operation does. -/
theorem Transition.failed_iff {e next : Execution} {op : Operation} {fault : Fault}
    (h : Transition e next) (hrun : e.status = .running)
    (hop : e.machine.currentOperation? = some op)
    (hlimit : ∀ limit, next.status ≠ .failed (.stepLimitExceeded limit)) :
    next.status = .failed fault ↔ op.effect e.machine = .error fault := by
  rcases h.effect_cases hop hlimit with ⟨found, heffect, rfl⟩ | ⟨flow, after, heffect, rfl⟩
  · rw [heffect]
    constructor
    · rintro ⟨⟩
      rfl
    · rintro ⟨⟩
      rfl
  · rw [heffect]
    constructor
    · intro hfailed
      exact absurd hfailed (follow_not_failed hrun)
    · exact nofun

/-- The inputs of the table are what an instruction needs, a full stack is in the
way of those that leave a word more, and any other step that does not fault
changes the depth by what its operation says. -/
theorem table_exact (code : Code) (limits : Limits) (k : Nat) (op : Operation)
    (hrun : (stepN k (start code limits)).status = .running)
    (hop : (stepN k (start code limits)).machine.currentOperation? = some op)
    (hlimit : ∀ limit,
      (stepN (k + 1) (start code limits)).status ≠ .failed (.stepLimitExceeded limit)) :
    ((stepN (k + 1) (start code limits)).status = .failed .stackUnderflow ↔
        (stepN k (start code limits)).machine.stack.depth < op.inputs) ∧
      ((stepN (k + 1) (start code limits)).status = .failed .stackOverflow ↔
        (stepN k (start code limits)).machine.stack.depth = Stack.capacity ∧
          (op = .pc ∨ op = .msize ∨ (∃ position, op = .dup position) ∨
            ∃ width, op = .push width ∧
              (stepN k (start code limits)).machine.pc + width < code.size)) ∧
      ((∀ fault, (stepN (k + 1) (start code limits)).status ≠ .failed fault) →
        ((stepN (k + 1) (start code limits)).machine.stack.depth : Int) =
          (stepN k (start code limits)).machine.stack.depth + op.depthChange) := by
  have hencodable : op.encodable = true := Operation.encodable_of_currentOperation? hop
  have hdepth := depth_stepN_start code limits k
  have hcode := (Sound.stepN code limits k).code_eq
  have htransition := transition_stepN hrun
  rw [stepN_succ] at hlimit ⊢
  refine ⟨?_, ?_, ?_⟩
  · rw [htransition.failed_iff hrun hop hlimit, Operation.effect_underflow_iff hencodable]
  · rw [htransition.failed_iff hrun hop hlimit,
      Operation.effect_overflow_iff hencodable hdepth, Operation.Deepens, hcode]
  · intro hfine
    rcases htransition.effect_cases hop hlimit with
      ⟨fault, -, hnext⟩ | ⟨flow, after, heffect, hnext⟩
    · rw [hnext] at hfine
      exact absurd rfl (hfine fault)
    · rw [hnext, stack_follow]
      exact Operation.depth_of_effect heffect

/-- Asks `n` times for its position. -/
def positions (n : Nat) : Code := Array.replicate n 0x58

theorem getElem?_positions {n i : Nat} (h : i < n) : (positions n)[i]? = some 0x58 := by
  simp [positions, h]

theorem stepN_positions {n k : Nat} (hn : k ≤ n) (hk : k ≤ Stack.capacity) :
    (stepN k (start (positions n) ⟨none, 0⟩)).status = .running ∧
      (stepN k (start (positions n) ⟨none, 0⟩)).machine.pc = k ∧
      (stepN k (start (positions n) ⟨none, 0⟩)).machine.stack.depth = k := by
  induction k with
  | zero => exact ⟨rfl, rfl, rfl⟩
  | succ k ih =>
      obtain ⟨hrun, hpc, hdepth⟩ := ih (Nat.le_of_succ_le hn) (Nat.le_of_succ_le hk)
      have hsound := Sound.stepN (positions n) ⟨none, 0⟩ k
      rw [stepN_succ]
      generalize stepN k (start (positions n) ⟨none, 0⟩) = e at *
      have hbyte : e.machine.currentByte? = some 0x58 := by
        rw [Machine.currentByte?, hsound.code_eq, hpc]
        exact getElem?_positions hn
      have hlimit : e.exhausted? = none := by
        rw [exhausted?, hsound.limits_eq]
      have hroom : Stack.depth ⟨e.machine.stack.words⟩ < Stack.capacity := by
        rw [← hdepth] at hk
        exact hk
      have heffect := Operation.effect_of_operands .pc [] e.machine.stack.words rfl rfl
      rw [show Operation.pc.outcome e.machine [] = .ok _ from rfl, Fault.ok_bind,
        Outcome.place_singleton _ _ _ _ hroom] at heffect
      have hstep := (Transition.performed hbyte hlimit rfl heffect).step_eq hrun hsound.depth_le
      rw [hstep]
      exact ⟨hrun, congrArg (· + 1) hpc, congrArg (· + 1) hdepth⟩

/-- The last of 1025 positions finds the stack full, and a store with one word
lacks the other. -/
theorem table_exact_positions_store :
    (stepN 1025 (start (positions 1025) ⟨none, 0⟩)).status = .failed .stackOverflow ∧
      (stepN 2 (start #[0x60, 0x01, 0x52] ⟨none, 0⟩)).status = .failed .stackUnderflow := by
  obtain ⟨hrun, hpc, hdepth⟩ := stepN_positions (n := 1025) (k := 1024) (by decide) (Nat.le_refl _)
  have hop : (stepN 1024 (start (positions 1025) ⟨none, 0⟩)).machine.currentOperation? =
      some .pc := by
    rw [Machine.currentOperation?, Machine.currentByte?, (Sound.stepN _ _ _).code_eq, hpc,
      getElem?_positions (by decide)]
    rfl
  have hfree : ∀ limit, (stepN 1025 (start (positions 1025) ⟨none, 0⟩)).status ≠
      .failed (.stepLimitExceeded limit) := by
    intro limit hlimit
    cases ((Sound.stepN (positions 1025) ⟨none, 0⟩ 1025).cut_off limit hlimit).1
  obtain ⟨-, hoverflow, -⟩ := table_exact (positions 1025) ⟨none, 0⟩ 1024 .pc hrun hop hfree
  obtain ⟨hunderflow, -, -⟩ := table_exact #[0x60, 0x01, 0x52] ⟨none, 0⟩ 1 .mstore
    (by decide +kernel) (by decide +kernel) (by
      intro limit hlimit
      cases ((Sound.stepN #[0x60, 0x01, 0x52] ⟨none, 0⟩ 2).cut_off limit hlimit).1)
  exact ⟨hoverflow.mpr ⟨hdepth, .inl rfl⟩, hunderflow.mpr (by decide +kernel)⟩

end Execution

end WordMachine
