import WordMachine.Proofs.StepLimit

/-!
# The memory limit

Memory grows by whole words, so of its limit only the number of whole words in it
is ever felt.  A larger limit refuses no access that a smaller one grants, and an
access that is granted leaves the same memory under both.  A run that has not
been refused any access is therefore the same run under a larger limit, and two
limits with the same number of whole words give the same run whatever happens.
-/

namespace WordMachine

namespace Memory

variable {m after : Memory} {limit offset length size : Nat}

/-- The same memory under another limit. -/
def relimit (m : Memory) (limit : Nat) : Memory := { m with limit }

theorem aligned_le_iff {n limit : Nat} : aligned n ≤ limit ↔ (n + 31) / 32 ≤ limit / 32 :=
  (Nat.le_div_iff_mul_le (by decide)).symm

theorem reach_relimit (hlimit : m.limit / 32 ≤ limit / 32)
    (h : m.reach offset length = .ok size) : (m.relimit limit).reach offset length = .ok size := by
  rw [reach_eq_ok_iff] at h ⊢
  obtain ⟨hstop, hinside | ⟨houtside, rfl, hsize, hgranted, hblock⟩⟩ := h
  · exact ⟨hstop, .inl hinside⟩
  · have hwords : (offset + length + 31) / 32 ≤ limit / 32 :=
      Nat.le_trans (aligned_le_iff.mp hgranted) hlimit
    exact ⟨hstop, .inr ⟨houtside, rfl, hsize, aligned_le_iff.mpr hwords, hblock⟩⟩

theorem read_relimit {bytes : List UInt8} (hlimit : m.limit / 32 ≤ limit / 32)
    (h : m.read offset length = .ok (bytes, after)) :
    (m.relimit limit).read offset length = .ok (bytes, after.relimit limit) := by
  obtain ⟨⟨⟩, hwidth, h⟩ := Fault.bind_eq_ok_iff.mp h
  obtain ⟨size, hreach, h⟩ := Fault.bind_eq_ok_iff.mp h
  cases h
  rw [read, hwidth, Fault.ok_bind, reach_relimit hlimit hreach]
  rfl

theorem write_relimit {bytes : List UInt8} (hlimit : m.limit / 32 ≤ limit / 32)
    (h : m.write offset bytes length = .ok after) :
    (m.relimit limit).write offset bytes length = .ok (after.relimit limit) := by
  obtain ⟨⟨⟩, hwidth, h⟩ := Fault.bind_eq_ok_iff.mp h
  obtain ⟨size, hreach, h⟩ := Fault.bind_eq_ok_iff.mp h
  cases h
  rw [write, hwidth, Fault.ok_bind, reach_relimit hlimit hreach]
  rfl

theorem readRange_relimit {bytes : List UInt8} (hlimit : m.limit / 32 ≤ limit / 32)
    (h : m.readRange offset length = .ok (bytes, after)) :
    (m.relimit limit).readRange offset length = .ok (bytes, after.relimit limit) := by
  obtain ⟨size, hreach, h⟩ := Fault.bind_eq_ok_iff.mp h
  cases h
  have hreach' : (m.relimit limit).reachRange offset length = .ok size := by
    unfold reachRange at hreach ⊢
    split at hreach
    · next hempty =>
        rw [if_pos hempty]
        exact hreach
    · next hsome =>
        rw [if_neg hsome]
        exact reach_relimit hlimit hreach
  rw [readRange, hreach']
  rfl

end Memory

namespace Machine

def relimit (m : Machine) (limit : Nat) : Machine := { m with memory := m.memory.relimit limit }

end Machine

namespace Outcome

variable {m : Machine} {limit : Nat} {o : Outcome}

def relimit (o : Outcome) (limit : Nat) : Outcome := { o with memory := o.memory.relimit limit }

theorem ofLoad_relimit {place : Word} (hlimit : m.memory.limit / 32 ≤ limit / 32)
    (h : ofLoad m.memory place = .ok o) :
    ofLoad (m.relimit limit).memory place = .ok (o.relimit limit) := by
  obtain ⟨offset, hoffset, h⟩ := Fault.bind_eq_ok_iff.mp h
  obtain ⟨⟨bytes, after⟩, hread, h⟩ := Fault.bind_eq_ok_iff.mp h
  obtain ⟨value, hvalue, h⟩ := Fault.bind_eq_ok_iff.mp h
  cases h
  have hread' := Memory.read_relimit hlimit hread
  simp only [ofLoad, Machine.relimit, hoffset, hread', hvalue, Fault.ok_bind]
  rfl

theorem ofStore_relimit {place value : Word} {width : Nat}
    (hlimit : m.memory.limit / 32 ≤ limit / 32)
    (h : ofStore m.memory place value width = .ok o) :
    ofStore (m.relimit limit).memory place value width = .ok (o.relimit limit) := by
  obtain ⟨offset, hoffset, h⟩ := Fault.bind_eq_ok_iff.mp h
  obtain ⟨after, hwrite, h⟩ := Fault.bind_eq_ok_iff.mp h
  cases h
  have hwrite' := Memory.write_relimit hlimit hwrite
  simp only [ofStore, Machine.relimit, hoffset, hwrite', Fault.ok_bind]
  rfl

theorem ofPayload_relimit {place extent : Word} {flow : List UInt8 → Flow}
    (hlimit : m.memory.limit / 32 ≤ limit / 32)
    (h : ofPayload m.memory place extent flow = .ok o) :
    ofPayload (m.relimit limit).memory place extent flow = .ok (o.relimit limit) := by
  obtain ⟨offset, hoffset, h⟩ := Fault.bind_eq_ok_iff.mp h
  obtain ⟨length, hlength, h⟩ := Fault.bind_eq_ok_iff.mp h
  obtain ⟨⟨bytes, after⟩, hread, h⟩ := Fault.bind_eq_ok_iff.mp h
  cases h
  have hread' := Memory.readRange_relimit hlimit hread
  simp only [ofPayload, Machine.relimit, hoffset, hlength, hread', Fault.ok_bind]
  rfl

/-- An access to memory either is refused or gives an outcome. -/
theorem relimit_of_access {x y : Except Fault Outcome}
    (herror : ∀ fault, x = .error fault → fault = .invalidMemoryOffset)
    (hok : ∀ o, x = .ok o → y = .ok (o.relimit limit)) (hne : x ≠ .error .invalidMemoryOffset) :
    y = x.map (relimit · limit) := by
  cases x with
  | error fault =>
      rw [herror fault rfl] at hne
      exact absurd rfl hne
  | ok o => exact hok o rfl

theorem ofJump_relimit (m : Machine) (limit : Nat) (destination : Word) :
    ofJump (m.relimit limit) destination = (ofJump m destination).map (relimit · limit) := by
  have htarget : (m.relimit limit).jumpTarget destination = m.jumpTarget destination := rfl
  rw [ofJump, ofJump, htarget]
  cases m.jumpTarget destination <;> rfl

theorem ofImmediate_relimit (m : Machine) (limit width : Nat) :
    ofImmediate (m.relimit limit) width = (ofImmediate m width).map (relimit · limit) := by
  have hvalue : (m.relimit limit).immediate width = m.immediate width := rfl
  rw [ofImmediate, ofImmediate, hvalue]
  cases m.immediate width <;> rfl

theorem place_relimit (o : Outcome) (m : Machine) (limit : Nat) (below : List Word) :
    (o.relimit limit).place (m.relimit limit) below =
      (o.place m below).map fun (flow, after) ↦ (flow, after.relimit limit) := by
  by_cases hfits : (o.results ++ below).length ≤ Stack.capacity
  · rw [place, place, if_pos hfits]
    exact if_pos hfits
  · rw [place, place, if_neg hfits]
    exact if_neg hfits

end Outcome

namespace Operation

variable {op : Operation} {m : Machine} {limit : Nat}

/-- What is not refused for the sake of memory comes to the same. -/
theorem outcome_relimit {operands : List Word} (hlength : operands.length = op.inputs)
    (hlimit : m.memory.limit / 32 ≤ limit / 32)
    (h : op.outcome m operands ≠ .error .invalidMemoryOffset) :
    op.outcome (m.relimit limit) operands = (op.outcome m operands).map (·.relimit limit) := by
  refine outcome_cases m (motive := fun op operands r ↦ r ≠ .error .invalidMemoryOffset →
      op.outcome (m.relimit limit) operands = r.map (·.relimit limit))
    ?stop ?unary ?binary ?ternary ?pop ?mload ?mstore ?mstore8 ?jump ?pass ?branch ?pc ?msize
    ?jumpdest ?push ?dup_zero ?dup ?swap_zero ?swap ?ret ?revert hlength h
  case stop | unary | binary | ternary | pop | pass | pc | msize | jumpdest | dup_zero |
      swap_zero =>
    intros
    rfl
  case mload =>
    intro place
    exact Outcome.relimit_of_access (fun _ ↦ Outcome.ofLoad_eq_error)
      fun _ ↦ Outcome.ofLoad_relimit hlimit
  case mstore =>
    intro place value
    exact Outcome.relimit_of_access (fun _ ↦ Outcome.ofStore_eq_error (.inr rfl))
      fun _ ↦ Outcome.ofStore_relimit hlimit
  case mstore8 =>
    intro place value
    exact Outcome.relimit_of_access (fun _ ↦ Outcome.ofStore_eq_error (.inl rfl))
      fun _ ↦ Outcome.ofStore_relimit hlimit
  case ret | revert =>
    intro place extent
    exact Outcome.relimit_of_access (fun _ ↦ Outcome.ofPayload_eq_error)
      fun _ ↦ Outcome.ofPayload_relimit hlimit
  case jump => exact fun destination _ ↦ Outcome.ofJump_relimit m limit destination
  case push => exact fun width _ ↦ Outcome.ofImmediate_relimit m limit width
  case branch =>
    intro destination condition hcondition _
    rw [← Outcome.ofJump_relimit]
    exact if_neg hcondition
  case dup =>
    intro above w _
    simp only [outcome, List.getLast?_concat]
    rfl
  case swap =>
    intro top above w _
    simp only [outcome, List.getLast?_concat, List.dropLast_concat]
    rfl

theorem effect_relimit (hlimit : m.memory.limit / 32 ≤ limit / 32)
    (h : op.effect m ≠ .error .invalidMemoryOffset) :
    op.effect (m.relimit limit) =
      (op.effect m).map fun (flow, after) ↦ (flow, after.relimit limit) := by
  by_cases hdepth : m.stack.depth < op.inputs
  · rw [effect_of_lt hdepth]
    exact effect_of_lt hdepth
  · obtain ⟨operands, below, hwords, hlength⟩ := exists_operands (Nat.le_of_not_lt hdepth)
    have hwords' : (m.relimit limit).stack.words = operands ++ below := hwords
    rw [effect_of_operands op operands below hwords hlength] at h ⊢
    have hgranted : op.outcome m operands ≠ .error .invalidMemoryOffset := by
      intro hrefused
      rw [hrefused] at h
      exact h rfl
    rw [effect_of_operands op operands below hwords' hlength,
      outcome_relimit hlength hlimit hgranted]
    cases op.outcome m operands with
    | error fault => rfl
    | ok o => exact o.place_relimit m limit below

/-- A limit of as many whole words refuses what the other one refuses: otherwise
the other one would grant what is granted here. -/
theorem effect_refused_relimit (hlimit : m.memory.limit / 32 = limit / 32)
    (h : op.effect m = .error .invalidMemoryOffset) :
    op.effect (m.relimit limit) = .error .invalidMemoryOffset := by
  apply Classical.byContradiction
  intro hgranted
  have hback : op.effect m =
      (op.effect (m.relimit limit)).map fun (flow, after) ↦ (flow, after.relimit m.memory.limit) :=
    effect_relimit (m := m.relimit limit) (Nat.le_of_eq hlimit.symm) hgranted
  rw [h] at hback
  cases heffect : op.effect (m.relimit limit) with
  | error fault =>
      rw [heffect] at hback hgranted
      cases hback
      exact hgranted rfl
  | ok pair =>
      rw [heffect] at hback
      cases hback

end Operation

namespace Execution

def relimit (e : Execution) (limit : Nat) : Execution :=
  { e with machine := e.machine.relimit limit, limits := { e.limits with memory := limit } }

variable {e next : Execution} {limit : Nat}

theorem follow_relimit (e : Execution) (limit : Nat) (op : Operation) (flow : Flow) :
    follow (e.relimit limit) op flow = (follow e op flow).relimit limit := by
  cases flow <;> rfl

theorem Transition.relimit (h : Transition e next)
    (hlimit : e.machine.memory.limit / 32 ≤ limit / 32)
    (hgranted : next.status ≠ .failed .invalidMemoryOffset) :
    Transition (e.relimit limit) (next.relimit limit) := by
  cases h with
  | ended hend => exact .ended hend
  | exhausted hbyte hsteps => exact .exhausted hbyte hsteps
  | invalid hbyte hsteps hop => exact .invalid hbyte hsteps hop
  | faulted hbyte hsteps hop heffect =>
      have hsame := Operation.effect_relimit (m := e.machine) hlimit fun hrefused ↦ by
        rw [heffect] at hrefused
        cases hrefused
        exact hgranted rfl
      rw [heffect] at hsame
      exact .faulted hbyte hsteps hop hsame
  | performed hbyte hsteps hop heffect =>
      have hsame := Operation.effect_relimit (m := e.machine) hlimit (by rw [heffect]; exact nofun)
      rw [heffect] at hsame
      rw [← follow_relimit]
      exact .performed hbyte hsteps hop hsame

theorem Transition.relimit_of_div_eq (h : Transition e next) (hrun : e.status = .running)
    (hlimit : e.machine.memory.limit / 32 = limit / 32) :
    Transition (e.relimit limit) (next.relimit limit) := by
  by_cases hrefused : next.status = .failed .invalidMemoryOffset
  · cases h with
    | ended | exhausted | invalid => cases hrefused
    | faulted hbyte hsteps hop heffect =>
        cases hrefused
        exact .faulted hbyte hsteps hop (Operation.effect_refused_relimit hlimit heffect)
    | performed => exact absurd hrefused (follow_not_failed hrun)
  · exact h.relimit (Nat.le_of_eq hlimit) hrefused

section

variable (code : Code) (steps : Option Nat) {low high : Nat}

/-- It is enough that the change of the limit does not disturb a transition. -/
theorem stepN_relimit {n : Nat}
    (hstep : ∀ k < n, (stepN k (start code ⟨steps, low⟩)).status = .running →
      Transition ((stepN k (start code ⟨steps, low⟩)).relimit high)
        ((stepN (k + 1) (start code ⟨steps, low⟩)).relimit high)) :
    stepN n (start code ⟨steps, high⟩) = (stepN n (start code ⟨steps, low⟩)).relimit high := by
  refine stepN_commute (e := start code ⟨steps, low⟩) (f := fun e ↦ e.relimit high)
    (fun _ ↦ rfl) ?_ (Nat.le_refl n)
  intro k hk hrun
  exact (hstep k hk hrun).step_eq hrun (depth_stepN_start code ⟨steps, low⟩ k)

theorem memory_limit_stepN (k : Nat) :
    (stepN k (start code ⟨steps, low⟩)).machine.memory.limit = low :=
  (Sound.stepN code ⟨steps, low⟩ k).memory_limit

theorem stepN_relimit_of_le (hle : low ≤ high) {n : Nat}
    (hgranted : (stepN n (start code ⟨steps, low⟩)).status ≠ .failed .invalidMemoryOffset) :
    stepN n (start code ⟨steps, high⟩) = (stepN n (start code ⟨steps, low⟩)).relimit high := by
  apply stepN_relimit
  intro k hk hrun
  have hlimit : (stepN k (start code ⟨steps, low⟩)).machine.memory.limit / 32 ≤ high / 32 := by
    rw [memory_limit_stepN]
    exact Nat.div_le_div_right hle
  -- A refusal would have ended the run, and would still be there at the end.
  have hbefore : (stepN (k + 1) (start code ⟨steps, low⟩)).status ≠
      .failed .invalidMemoryOffset := by
    intro hrefused
    have hterminal : (stepN (k + 1) (start code ⟨steps, low⟩)).status.isTerminal = true := by
      rw [hrefused]
      rfl
    rw [stepN_eq_of_le hterminal hk] at hgranted
    exact hgranted hrefused
  rw [stepN_succ] at hbefore ⊢
  exact (transition_stepN hrun).relimit hlimit hbefore

theorem stepN_relimit_of_div_eq (heq : low / 32 = high / 32) (n : Nat) :
    stepN n (start code ⟨steps, high⟩) = (stepN n (start code ⟨steps, low⟩)).relimit high := by
  apply stepN_relimit
  intro k _ hrun
  rw [stepN_succ]
  refine (transition_stepN hrun).relimit_of_div_eq hrun ?_
  rw [memory_limit_stepN]
  exact heq

end

/-- A larger memory limit makes no difference to a run that the smaller one has
not refused an access, and limits of as many whole words make none at all. -/
theorem memory_limit_monotone (code : Code) (steps : Option Nat) (low high : Nat) :
    (low ≤ high → ∀ k,
      (stepN k (start code ⟨steps, low⟩)).status ≠ .failed .invalidMemoryOffset →
      stepN k (start code ⟨steps, high⟩) = (stepN k (start code ⟨steps, low⟩)).relimit high) ∧
    (low / 32 = high / 32 →
      (∀ k, stepN k (start code ⟨steps, high⟩) =
        (stepN k (start code ⟨steps, low⟩)).relimit high) ∧
      WordMachine.run code ⟨steps, high⟩ = WordMachine.run code ⟨steps, low⟩) := by
  constructor
  · intro hle k hgranted
    exact stepN_relimit_of_le code steps hle hgranted
  · intro heq
    have hsame := stepN_relimit_of_div_eq code steps heq
    refine ⟨hsame, ?_⟩
    rw [run_eq_stepN, run_eq_stepN, hsame]
    rfl

/-- Three words are room for the load and two are not, but a limit between two
and three words is a limit of two. -/
theorem storeThenLoad_memory_limit :
    (stepN 4 (start storeThenLoad ⟨none, 64⟩)).status ≠ .failed .invalidMemoryOffset ∧
      stepN 4 (start storeThenLoad ⟨none, 96⟩) =
        (stepN 4 (start storeThenLoad ⟨none, 64⟩)).relimit 96 ∧
      (stepN 5 (start storeThenLoad ⟨none, 95⟩)).status = .failed .invalidMemoryOffset ∧
      WordMachine.run storeThenLoad ⟨some 9, 95⟩ = WordMachine.run storeThenLoad ⟨some 9, 64⟩ := by
  have hgranted : (stepN 4 (start storeThenLoad ⟨none, 64⟩)).status ≠
      .failed .invalidMemoryOffset := by decide +kernel
  obtain ⟨hlarger, -⟩ := memory_limit_monotone storeThenLoad none 64 96
  obtain ⟨-, hwords⟩ := memory_limit_monotone storeThenLoad (some 9) 64 95
  exact ⟨hgranted, hlarger (by decide) 4 hgranted, by decide +kernel, (hwords rfl).2⟩

end Execution

end WordMachine
