import WordMachine.Proofs.Footprint
import WordMachine.Proofs.MemoryMap
import WordMachine.Proofs.Schedule

/-!
# Payloads

RETURN and REVERT hand out a range of memory and end the run.  The offset and the
length are narrowed one after the other, and only then is it seen whether the range
is empty, so that an empty one still has to lie at an address.  No other end of a
run has a payload.
-/

namespace WordMachine

namespace Memory

/-! ## Ranges that can be had -/

/-- Both words are addresses, and the range is empty, or such that memory can reach
to its end, or has done so before. -/
def Obtainable (m : Memory) (limit : Nat) (place extent : Word) : Prop :=
  place.toNat < Word.sizeBound ∧ extent.toNat < Word.sizeBound ∧
    (extent.toNat = 0 ∨
      aligned (place.toNat + extent.toNat) < Word.sizeBound ∧
        aligned (place.toNat + extent.toNat) ≤ limit ∨
      place.toNat + extent.toNat ≤ m.size)

instance (m : Memory) (limit : Nat) (place extent : Word) :
    Decidable (m.Obtainable limit place extent) :=
  inferInstanceAs (Decidable (_ ∧ _))

variable {m : Memory} {limit offset length : Nat}

theorem Serving.not_refused_iff (h : Serving limit m) :
    ¬ByteMap.Refused limit (offset + length) ↔
      aligned (offset + length) < Word.sizeBound ∧ aligned (offset + length) ≤ limit ∨
        offset + length ≤ m.size := by
  have hcovered := aligned_le_iff_of_dvd (n := offset + length) h.whole.words
  have hle := le_aligned (offset + length)
  have hbounded := h.whole.bounded
  have hlt := h.size_lt
  rw [h.limit_eq] at hbounded
  unfold ByteMap.Refused
  omega

theorem Serving.readRange_of_not_refused (h : Serving limit m)
    (hblock : Access.Allocatable limit ⟨.readRange, offset, length⟩)
    (hgranted : length = 0 ∨ ¬ByteMap.Refused limit (offset + length)) :
    ∃ size, m.readRange offset length = .ok (m.window offset length, m.growTo size) ∧
      (length = 0 → m.growTo size = m) := by
  by_cases hempty : length = 0
  · refine ⟨m.size, ?_, fun _ ↦ m.growTo_size⟩
    rw [readRange, reachRange, if_pos hempty]
    rfl
  · have hgranted := hgranted.resolve_left hempty
    have hlimit : aligned (offset + length) ≤ limit := by
      apply Nat.le_of_not_lt
      intro hover
      exact hgranted (.inr (.inr hover))
    have hreach := h.reach_of_not_refused hgranted (hblock (.inl rfl) hempty hlimit)
    refine ⟨max m.size (aligned (offset + length)), ?_, fun hzero ↦ absurd hzero hempty⟩
    rw [readRange, reachRange, if_neg hempty, hreach]
    rfl

theorem Serving.readRange_of_refused (h : Serving limit m) (hlength : length ≠ 0)
    (hrefused : ByteMap.Refused limit (offset + length)) :
    m.readRange offset length = .error .invalidMemoryOffset := by
  rw [readRange, reachRange, if_neg hlength, h.reach_of_refused hrefused]
  rfl

end Memory

namespace Word

theorem toOffset_of_lt {w : Word} (h : w.toNat < sizeBound) : w.toOffset = .ok w.toNat := by
  rw [toOffset, toSize?, if_pos h]

theorem toOffset_of_not_lt {w : Word} (h : ¬w.toNat < sizeBound) :
    w.toOffset = .error .invalidMemoryOffset := by
  rw [toOffset, toSize?, if_neg h]

end Word

namespace Outcome

variable {m : Memory} {limit : Nat} {place extent : Word} (flow : List UInt8 → Flow)

theorem ofPayload_of_obtainable (h : Memory.Serving limit m)
    (hblock : Access.Allocatable limit ⟨.readRange, place.toNat, extent.toNat⟩)
    (hgranted : m.Obtainable limit place extent) :
    ∃ size, ofPayload m place extent flow =
        .ok ⟨[], m.growTo size, flow (m.window place.toNat extent.toNat)⟩ ∧
      (extent.toNat = 0 → m.growTo size = m) := by
  obtain ⟨hplace, hextent, hrange⟩ := hgranted
  rw [← h.not_refused_iff] at hrange
  obtain ⟨size, hread, hempty⟩ := h.readRange_of_not_refused hblock hrange
  refine ⟨size, ?_, hempty⟩
  simp only [ofPayload, Word.toOffset_of_lt hplace, Word.toOffset_of_lt hextent, Fault.ok_bind,
    hread, Fault.pure_eq_ok]

theorem ofPayload_of_not_obtainable (h : Memory.Serving limit m)
    (hrefused : ¬m.Obtainable limit place extent) :
    ofPayload m place extent flow = .error .invalidMemoryOffset := by
  unfold ofPayload
  by_cases hplace : place.toNat < Word.sizeBound
  · rw [Word.toOffset_of_lt hplace, Fault.ok_bind]
    by_cases hextent : extent.toNat < Word.sizeBound
    · have hlength : extent.toNat ≠ 0 := by
        intro hempty
        exact hrefused ⟨hplace, hextent, .inl hempty⟩
      have hrange : ByteMap.Refused limit (place.toNat + extent.toNat) := by
        apply Decidable.of_not_not
        intro hgranted
        exact hrefused ⟨hplace, hextent, .inr (h.not_refused_iff.mp hgranted)⟩
      rw [Word.toOffset_of_lt hextent, Fault.ok_bind, h.readRange_of_refused hlength hrange,
        Fault.error_bind]
    · rw [Word.toOffset_of_not_lt hextent, Fault.error_bind]
  · rw [Word.toOffset_of_not_lt hplace, Fault.error_bind]

end Outcome

/-! ## The size of memory in a run -/

namespace Memory

theorem size_growTo_le {m : Memory} {offset length size : Nat}
    (h : m.reach offset length = .ok size) (hsize : m.size ≤ blockBound) :
    (m.growTo size).size ≤ blockBound := by
  rw [size_growTo]
  rcases (reach_eq_ok_iff.mp h).2 with ⟨-, rfl⟩ | ⟨-, -, -, -, hblock⟩
  · rwa [Nat.max_self]
  · exact Nat.max_le.mpr ⟨hsize, hblock⟩

theorem size_growTo_le_of_reachRange {m : Memory} {offset length size : Nat}
    (h : m.reachRange offset length = .ok size) (hsize : m.size ≤ blockBound) :
    (m.growTo size).size ≤ blockBound := by
  unfold reachRange at h
  split at h
  · cases h
    rwa [growTo_size]
  · exact size_growTo_le h hsize

end Memory

namespace Outcome

variable {m : Memory} {o : Outcome} {place value extent : Word}

theorem size_ofLoad_le (h : ofLoad m place = .ok o) (hsize : m.size ≤ Memory.blockBound) :
    o.memory.size ≤ Memory.blockBound := by
  obtain ⟨offset, -, h⟩ := Fault.bind_eq_ok_iff.mp h
  obtain ⟨⟨bytes, after⟩, hread, h⟩ := Fault.bind_eq_ok_iff.mp h
  obtain ⟨word, -, h⟩ := Fault.bind_eq_ok_iff.mp h
  obtain ⟨size, hreach, -, rfl⟩ := Memory.read_eq_ok hread
  cases h
  exact Memory.size_growTo_le hreach hsize

theorem size_ofStore_le {width : Nat} (h : ofStore m place value width = .ok o)
    (hsize : m.size ≤ Memory.blockBound) : o.memory.size ≤ Memory.blockBound := by
  obtain ⟨offset, -, h⟩ := Fault.bind_eq_ok_iff.mp h
  obtain ⟨after, hwrite, h⟩ := Fault.bind_eq_ok_iff.mp h
  obtain ⟨size, hreach, rfl⟩ := Memory.write_eq_ok hwrite
  cases h
  rw [Memory.size_overwrite]
  exact Memory.size_growTo_le hreach hsize

theorem size_ofPayload_le {flow : List UInt8 → Flow} (h : ofPayload m place extent flow = .ok o)
    (hsize : m.size ≤ Memory.blockBound) : o.memory.size ≤ Memory.blockBound := by
  obtain ⟨offset, -, h⟩ := Fault.bind_eq_ok_iff.mp h
  obtain ⟨length, -, h⟩ := Fault.bind_eq_ok_iff.mp h
  obtain ⟨⟨bytes, after⟩, hread, h⟩ := Fault.bind_eq_ok_iff.mp h
  obtain ⟨size, hreach, -, rfl⟩ := Memory.readRange_eq_ok hread
  cases h
  exact Memory.size_growTo_le_of_reachRange hreach hsize

end Outcome

namespace Operation

theorem eq_revert_of_outcome {op : Operation} {m : Machine} {operands : List Word} {o : Outcome}
    (hlength : operands.length = op.inputs) (h : op.outcome m operands = .ok o)
    {payload : List UInt8} (hflow : o.flow = .revert payload) : op = .revert := by
  refine outcome_cases m
    (motive := fun op _ r ↦ ∀ o, r = .ok o → o.flow = .revert payload → op = .revert)
    ?stop ?unary ?binary ?ternary ?pop ?mload ?mstore ?mstore8 ?jump ?pass ?branch ?pc ?msize
    ?jumpdest ?push ?dup_zero ?dup ?swap_zero ?swap ?ret ?revert hlength o h hflow
  case stop | unary | binary | ternary | pop | pass | pc | msize | jumpdest | dup | swap =>
    intros
    cases ‹_ = Except.ok _›
    contradiction
  case mload =>
    intro place o h hflow
    obtain ⟨value, after, -, rfl⟩ := Outcome.ofLoad_eq_ok h
    cases hflow
  case mstore | mstore8 =>
    intro place value o h hflow
    obtain ⟨after, -, rfl⟩ := Outcome.ofStore_eq_ok h
    cases hflow
  case jump =>
    intro destination o h hflow
    obtain ⟨target, -, rfl⟩ := Outcome.ofJump_eq_ok h
    cases hflow
  case branch =>
    intro destination condition _ o h hflow
    obtain ⟨target, -, rfl⟩ := Outcome.ofJump_eq_ok h
    cases hflow
  case push =>
    intro width o h hflow
    obtain ⟨value, -, rfl⟩ := Outcome.ofImmediate_eq_ok h
    cases hflow
  case dup_zero => exact nofun
  case swap_zero => exact nofun
  case ret =>
    intro place extent o h hflow
    obtain ⟨handed, after, -, rfl⟩ := Outcome.ofPayload_eq_ok h
    cases hflow
  case revert => exact fun _ _ _ _ _ ↦ rfl

theorem eq_revert_of_effect {op : Operation} {m after : Machine} {payload : List UInt8}
    (h : op.effect m = .ok (.revert payload, after)) : op = .revert := by
  obtain ⟨operands, below, o, -, hlength, houtcome, -, hflow, -⟩ := effect_eq_ok h
  exact eq_revert_of_outcome hlength houtcome hflow.symm

theorem memory_size_of_effect {op : Operation} {m after : Machine} {flow : Flow}
    (h : op.effect m = .ok (flow, after)) (hsize : m.memory.size ≤ Memory.blockBound) :
    after.memory.size ≤ Memory.blockBound := by
  cases haccess : op.accessesMemory with
  | false =>
      rw [memory_of_effect h haccess]
      exact hsize
  | true =>
      obtain ⟨operands, below, o, -, hlength, houtcome, -, -, rfl⟩ := effect_eq_ok h
      match op, operands, hlength with
      | .mload, [place], _ => exact Outcome.size_ofLoad_le houtcome hsize
      | .mstore, [place, value], _ => exact Outcome.size_ofStore_le houtcome hsize
      | .mstore8, [place, value], _ => exact Outcome.size_ofStore_le houtcome hsize
      | .ret, [place, extent], _ => exact Outcome.size_ofPayload_le houtcome hsize
      | .revert, [place, extent], _ => exact Outcome.size_ofPayload_le houtcome hsize

end Operation

namespace Execution

variable {code : Code} {limits : Limits} {e next : Execution}

theorem Transition.memory_size_le (h : Transition e next)
    (hsize : e.machine.memory.size ≤ Memory.blockBound) :
    next.machine.memory.size ≤ Memory.blockBound := by
  cases h with
  | ended | exhausted | invalid | faulted => exact hsize
  | performed hbyte hlimit hop heffect =>
      rw [memory_follow]
      exact Operation.memory_size_of_effect heffect hsize

theorem memory_size_stepN_le (code : Code) (limits : Limits) (k : Nat) :
    (stepN k (start code limits)).machine.memory.size ≤ Memory.blockBound :=
  stepN_induction (motive := fun e ↦ e.machine.memory.size ≤ Memory.blockBound) (Nat.zero_le _)
    (Nat.zero_le _) (fun _ htransition ↦ htransition.memory_size_le) k

theorem serving_stepN (code : Code) (limits : Limits) (k : Nat) :
    Memory.Serving limits.memory (stepN k (start code limits)).machine.memory where
  limit_eq := (Sound.stepN code limits k).memory_limit
  whole := (Sound.stepN code limits k).memory_whole
  size_lt := Nat.lt_of_le_of_lt (memory_size_stepN_le code limits k) (by decide)

/-! ## Handing out -/

/-- The operations that hand out a payload, and the status in which they leave the
run. -/
inductive Pays : Operation → Status → Prop where
  | ret : Pays .ret .halted
  | revert : Pays .revert .reverted

/-- What the step from `e` to `next` does with an offset and a length on the stack. -/
structure HandsOut (limit : Nat) (ending : Status) (place extent : Word) (below : List Word)
    (e next : Execution) : Prop where
  granted_iff : next.status = ending ↔ e.machine.memory.Obtainable limit place extent
  length_eq : next.status = ending → next.payload.length = extent.toNat
  bytes : next.status = ending → ∀ i < extent.toNat,
    next.payload[i]? = some (e.machine.memory.byteAt (place.toNat + i))
  stack : next.status = ending → next.machine.stack.words = below
  memory : next.status = ending → extent.toNat = 0 → next.machine.memory = e.machine.memory
  refused : next.status ≠ ending → next.status = .failed .invalidMemoryOffset

theorem Pays.outcome {op : Operation} {ending : Status} (h : Pays op ending) :
    ∃ flow : List UInt8 → Flow, op.inputs = 2 ∧
      (∀ m place extent,
        op.outcome m [place, extent] = Outcome.ofPayload m.memory place extent flow) ∧
      ∀ e payload, follow e op (flow payload) = { e with status := ending, payload } := by
  cases h with
  | ret => exact ⟨.ret, rfl, fun _ _ _ ↦ rfl, fun _ _ ↦ rfl⟩
  | revert => exact ⟨.revert, rfl, fun _ _ _ ↦ rfl, fun _ _ ↦ rfl⟩

theorem Pays.ne_failed {op : Operation} {ending : Status} (h : Pays op ending) (fault : Fault) :
    Status.failed fault ≠ ending := by
  cases h <;> nofun

theorem Transition.ne_exhausted (h : Transition e next) (hrun : e.status = .running)
    (hlimit : e.exhausted? = none) (limit : Nat) :
    next.status ≠ .failed (.stepLimitExceeded limit) := by
  cases h with
  | ended | invalid => exact nofun
  | exhausted _ hexhausted =>
      rw [hlimit] at hexhausted
      cases hexhausted
  | faulted _ _ _ heffect =>
      rintro ⟨⟩
      exact Operation.effect_ne_stepLimitExceeded _ _ _ heffect
  | performed => exact follow_not_failed hrun

theorem Transition.handsOut {op : Operation} {ending : Status} {place extent : Word}
    {below : List Word} {limit : Nat} (h : Transition e next) (hpays : Pays op ending)
    (hrun : e.status = .running) (hlimit : e.exhausted? = none)
    (hop : e.machine.currentOperation? = some op)
    (hwords : e.machine.stack.words = place :: extent :: below)
    (hdepth : e.machine.stack.depth ≤ Stack.capacity)
    (hserving : Memory.Serving limit e.machine.memory)
    (hblock : Access.Allocatable limit ⟨.readRange, place.toNat, extent.toNat⟩) :
    HandsOut limit ending place extent below e next := by
  obtain ⟨flow, hinputs, houtcome, hfollow⟩ := hpays.outcome
  have hroom : Stack.depth ⟨below⟩ ≤ Stack.capacity := by
    rw [Stack.depth, hwords] at hdepth
    exact Nat.le_of_succ_le (Nat.le_of_succ_le hdepth)
  have heffect := Operation.effect_of_operands op [place, extent] below hwords hinputs.symm
  rw [houtcome] at heffect
  have hcases := h.effect_cases hop (h.ne_exhausted hrun hlimit)
  by_cases hgranted : e.machine.memory.Obtainable limit place extent
  · obtain ⟨size, hpayload, hempty⟩ :=
      Outcome.ofPayload_of_obtainable flow hserving hblock hgranted
    rw [hpayload, Fault.ok_bind, Outcome.place_nil _ _ _ hroom] at heffect
    obtain ⟨fault, hfault, -⟩ | ⟨flow', after, hok, rfl⟩ := hcases
    · cases heffect.symm.trans hfault
    · cases heffect.symm.trans hok
      rw [hfollow]
      exact {
        granted_iff := ⟨fun _ ↦ hgranted, fun _ ↦ rfl⟩
        length_eq := fun _ ↦ Memory.length_window _ _ _
        bytes := fun _ i hi ↦ by simp [Memory.window, hi]
        stack := fun _ ↦ rfl
        memory := fun _ ↦ hempty
        refused := fun hne ↦ absurd rfl hne }
  · rw [Outcome.ofPayload_of_not_obtainable flow hserving hgranted, Fault.error_bind] at heffect
    obtain ⟨fault, hfault, rfl⟩ | ⟨flow', after, hok, -⟩ := hcases
    · cases heffect.symm.trans hfault
      have hne := hpays.ne_failed .invalidMemoryOffset
      exact {
        granted_iff := ⟨fun heq ↦ absurd heq hne, fun hok ↦ absurd hok hgranted⟩
        length_eq := fun heq ↦ absurd heq hne
        bytes := fun heq ↦ absurd heq hne
        stack := fun heq ↦ absurd heq hne
        memory := fun heq ↦ absurd heq hne
        refused := fun _ ↦ rfl }
    · cases heffect.symm.trans hok

/-! ## Other ends -/

/-- Within `k` steps from `e` one of the two operations has ended the run. -/
def PaidOut (e : Execution) (k : Nat) : Prop :=
  ∃ j < k, ∃ op ending, Pays op ending ∧ (stepN j e).status = .running ∧
    (stepN j e).machine.currentOperation? = some op ∧ (stepN (j + 1) e).status = ending

/-- A step that no payload comes of adds none. -/
theorem Transition.payload_eq (h : Transition e next) :
    next.payload = e.payload ∨
      ∃ op ending, Pays op ending ∧ e.machine.currentOperation? = some op ∧
        next.status = ending := by
  cases h with
  | ended | exhausted | invalid | faulted => exact .inl rfl
  | @performed byte op flow after hbyte hlimit hop heffect =>
      have hcurrent := Machine.currentOperation?_eq_some hbyte hop
      cases flow with
      | next | jump | stop => exact .inl rfl
      | ret payload =>
          obtain ⟨o, below, hregular, -, hflow, -⟩ := Operation.effect_regular heffect
          rw [hregular.ret payload hflow.symm] at hcurrent
          exact .inr ⟨.ret, .halted, .ret, hcurrent, rfl⟩
      | revert payload =>
          rw [Operation.eq_revert_of_effect heffect] at hcurrent
          exact .inr ⟨.revert, .reverted, .revert, hcurrent, rfl⟩

theorem payload_stepN {k : Nat} (h : ¬PaidOut (start code limits) k) :
    (stepN k (start code limits)).payload = [] := by
  induction k with
  | zero => rfl
  | succ k ih =>
      have hearlier : ¬PaidOut (start code limits) k := by
        rintro ⟨j, hj, hpaid⟩
        exact h ⟨j, Nat.lt_succ_of_lt hj, hpaid⟩
      by_cases hrun : (stepN k (start code limits)).status = .running
      · rcases (transition_stepN hrun).payload_eq with hsame | ⟨op, ending, hpays, hop, hend⟩
        · rw [stepN_succ, hsame]
          exact ih hearlier
        · rw [← stepN_succ] at hend
          exact absurd ⟨k, Nat.lt_succ_self k, op, ending, hpays, hrun, hop, hend⟩ h
      · rw [stepN_succ, step_of_isTerminal (isTerminal_iff.mpr hrun)]
        exact ih hearlier

/-- RETURN and REVERT hand out the range that the two words on top name, if it can be
had, and fault otherwise; whatever else happens in a run, there is no payload. -/
theorem payload_exact (code : Code) (limits : Limits) :
    (∀ k op ending place extent below, Pays op ending →
      (stepN k (start code limits)).status = .running →
      (stepN k (start code limits)).exhausted? = none →
      (stepN k (start code limits)).machine.currentOperation? = some op →
      (stepN k (start code limits)).machine.stack.words = place :: extent :: below →
      Access.Allocatable limits.memory ⟨.readRange, place.toNat, extent.toNat⟩ →
      HandsOut limits.memory ending place extent below (stepN k (start code limits))
        (stepN (k + 1) (start code limits))) ∧
      (∀ k, ¬PaidOut (start code limits) k → (stepN k (start code limits)).payload = []) ∧
      ((∀ k, ¬PaidOut (start code limits) k) → (WordMachine.run code limits).payload = []) := by
  refine ⟨?_, fun _ ↦ payload_stepN, ?_⟩
  · intro k op ending place extent below hpays hrun hlimit hop hwords hblock
    rw [stepN_succ]
    exact (transition_stepN hrun).handsOut hpays hrun hlimit hop hwords
      (depth_stepN_start code limits k) (serving_stepN code limits k) hblock
  · intro hnone
    have hrun := run_eq_stepN_budget (start code limits)
    rw [WordMachine.run, hrun]
    exact payload_stepN (hnone _)

/-- Stores 42 at 0, and returns three bytes from 30 on. -/
def storeThenReturn : Code := #[0x60, 0x2a, 0x60, 0x00, 0x52, 0x60, 0x03, 0x60, 0x1e, 0xf3]

/-- The last of the three bytes lies beyond what has been used, and memory for it is
there or is not. -/
theorem payload_exact_storeThenReturn :
    (stepN 6 (start storeThenReturn ⟨some 6, 64⟩)).status = .halted ∧
      (stepN 6 (start storeThenReturn ⟨some 6, 64⟩)).payload.length = 3 ∧
      (stepN 6 (start storeThenReturn ⟨some 6, 64⟩)).payload[1]? = some 42 ∧
      (stepN 5 (start storeThenReturn ⟨some 6, 64⟩)).payload = [] ∧
      (stepN 6 (start storeThenReturn ⟨some 6, 32⟩)).status = .failed .invalidMemoryOffset := by
  have hblock : ∀ limit ≤ 64, Access.Allocatable limit
      ⟨.readRange, (0x1e#256 : Word).toNat, (0x03#256 : Word).toNat⟩ := by
    intro limit _ _ _ _
    decide
  obtain ⟨hstep, hother, -⟩ := payload_exact storeThenReturn ⟨some 6, 64⟩
  have hout := hstep 5 .ret .halted 0x1e#256 0x03#256 [] .ret (by decide +kernel)
    (by decide +kernel) (by decide +kernel) (by decide +kernel) (hblock 64 (by decide))
  have hend := hout.granted_iff.mpr (by decide +kernel)
  have hshort := (payload_exact storeThenReturn ⟨some 6, 32⟩).1 5 .ret .halted 0x1e#256 0x03#256 []
    .ret (by decide +kernel) (by decide +kernel) (by decide +kernel) (by decide +kernel)
    (hblock 32 (by decide))
  refine ⟨hend, hout.length_eq hend, ?_, hother 5 ?_, hshort.refused ?_⟩
  · rw [hout.bytes hend 1 (by decide)]
    decide +kernel
  · rintro ⟨j, hj, op, ending, hpays, -, hop, -⟩
    have hnone : ∀ j < 5, (stepN j (start storeThenReturn ⟨some 6, 64⟩)).machine.currentOperation? ≠
        some .ret ∧ (stepN j (start storeThenReturn ⟨some 6, 64⟩)).machine.currentOperation? ≠
        some .revert := by decide +kernel
    cases hpays with
    | ret => exact (hnone j hj).1 hop
    | revert => exact (hnone j hj).2 hop
  · rw [ne_eq, hshort.granted_iff]
    decide +kernel

end Execution

end WordMachine
