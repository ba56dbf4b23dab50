import WordMachine.Action
import WordMachine.Proofs.MemoryGrowth

/-!
# Outcomes

What an operation comes to, said without saying in which order it is done.
The operands are the words that the operation table counts as inputs; the
outcome puts other words in their place.  There are three ways to fault, and
they are tried in this order: there are fewer words than inputs, the outcome is
itself a fault, or the words that come back do not fit on the stack.

`outcome_cases` lists what the operands of an operation can be and what comes of
them; every fact about outcomes below goes through it.
-/

namespace WordMachine

/-- The words that take the place of the operands, the memory, and where to go. -/
structure Outcome where
  results : List Word
  memory : Memory
  flow : Flow

namespace Fault

/-- The faults that the operands of an operation, or the want of them, can be the
reason for. -/
def ofOperands : Fault → Bool
  | stackUnderflow | stackValueTooBig | pcOutOfBounds _ | jumpOutOfBounds _
  | jumpToInvalidDestination _ | invalidMemoryOffset => true
  | _ => false

end Fault

namespace Outcome

def ofLoad (m : Memory) (place : Word) : Except Fault Outcome := do
  let offset ← place.toOffset
  let (bytes, m) ← m.read offset 32
  let value ← Word.ofBytes bytes
  return ⟨[value], m, .next⟩

def ofStore (m : Memory) (place value : Word) (width : Nat) : Except Fault Outcome := do
  let offset ← place.toOffset
  let m ← m.write offset (value.toBytes width) width
  return ⟨[], m, .next⟩

def ofJump (m : Machine) (destination : Word) : Except Fault Outcome := do
  let target ← m.jumpTarget destination
  return ⟨[], m.memory, .jump target⟩

def ofImmediate (m : Machine) (width : Nat) : Except Fault Outcome := do
  let value ← m.immediate width
  return ⟨[value], m.memory, .next⟩

def ofPayload (m : Memory) (place extent : Word) (flow : List UInt8 → Flow) :
    Except Fault Outcome := do
  let offset ← place.toOffset
  let length ← extent.toOffset
  let (bytes, m) ← m.readRange offset length
  return ⟨[], m, flow bytes⟩

/-- Puts the results on what lies below the operands, if they fit. -/
def place (o : Outcome) (m : Machine) (below : List Word) : Except Fault (Flow × Machine) :=
  if (o.results ++ below).length ≤ Stack.capacity then
    .ok (o.flow, { m with stack := ⟨o.results ++ below⟩, memory := o.memory })
  else .error .stackOverflow

theorem place_eq_ok {o : Outcome} {m after : Machine} {below : List Word} {flow : Flow}
    (h : o.place m below = .ok (flow, after)) :
    (o.results ++ below).length ≤ Stack.capacity ∧ flow = o.flow ∧
      after = { m with stack := ⟨o.results ++ below⟩, memory := o.memory } := by
  unfold place at h
  split at h
  · next hfits =>
      cases h
      exact ⟨hfits, rfl, rfl⟩
  · cases h

theorem place_eq_error {o : Outcome} {m : Machine} {below : List Word} {fault : Fault}
    (h : o.place m below = .error fault) :
    Stack.capacity < (o.results ++ below).length ∧ fault = .stackOverflow := by
  unfold place at h
  split at h
  · cases h
  · next hfull =>
      cases h
      exact ⟨Nat.lt_of_not_le hfull, rfl⟩

theorem place_nil {below : List Word} (m : Machine) (memory : Memory) (flow : Flow)
    (h : Stack.depth ⟨below⟩ ≤ Stack.capacity) :
    place ⟨[], memory, flow⟩ m below = .ok (flow, { m with stack := ⟨below⟩, memory }) :=
  if_pos h

theorem place_singleton {below : List Word} (m : Machine) (w : Word) (memory : Memory)
    (flow : Flow) (h : Stack.depth ⟨below⟩ < Stack.capacity) :
    place ⟨[w], memory, flow⟩ m below = .ok (flow, { m with stack := ⟨w :: below⟩, memory }) :=
  if_pos h

theorem place_singleton_of_full {below : List Word} (m : Machine) (w : Word) (memory : Memory)
    (flow : Flow) (h : ¬Stack.depth ⟨below⟩ < Stack.capacity) :
    place ⟨[w], memory, flow⟩ m below = .error .stackOverflow :=
  if_neg h

end Outcome

namespace Word

theorem toSize?_eq_some {w : Word} {n : Nat} (h : w.toSize? = some n) : w.toNat = n := by
  unfold toSize? at h
  split at h
  · exact Option.some.inj h
  · cases h

theorem toSize?_eq_none {w : Word} (h : w.toSize? = none) : sizeBound ≤ w.toNat := by
  unfold toSize? at h
  split at h
  · cases h
  · next hbound => exact Nat.le_of_not_lt hbound

end Word

namespace Code

theorem immediate_eq_ok {code : Code} {pc width : Nat} {value : Word}
    (h : code.immediate pc width = .ok value) : pc + width < code.size := by
  unfold immediate at h
  dsimp only at h
  split at h
  · assumption
  · cases h

theorem immediate_eq_error {code : Code} {pc width : Nat} {fault : Fault}
    (h : code.immediate pc width = .error fault) :
    fault = .pcOutOfBounds (pc + width) ∧ code.size ≤ pc + width ∨
      fault = .stackValueTooBig ∧ 32 < width := by
  unfold immediate at h
  dsimp only at h
  split at h
  · next hinside =>
      right
      by_cases hwidth : width ≤ 32
      · have hlength : (code.extract (pc + 1) (pc + width + 1)).toList.length ≤ 32 := by
          simp only [Array.length_toList, Array.size_extract]
          omega
        rw [Word.ofBytes_of_length_le hlength] at h
        cases h
      · refine ⟨?_, Nat.lt_of_not_le hwidth⟩
        unfold Word.ofBytes at h
        dsimp only at h
        split at h
        · cases h
        · cases h
          rfl
  · next houtside =>
      cases h
      exact .inl ⟨rfl, Nat.le_of_not_lt houtside⟩

theorem jumpTarget_eq_ok {code : Code} {destination : Word} {target : Nat}
    (h : code.jumpTarget destination = .ok target) :
    target = destination.toNat ∧ code[target]? = some Operation.jumpdestByte := by
  unfold jumpTarget at h
  split at h
  · next t hsize =>
      split at h
      · split at h
        · next hbyte =>
            cases h
            exact ⟨(Word.toSize?_eq_some hsize).symm, hbyte⟩
        · cases h
      · cases h
  · cases h

theorem jumpTarget_eq_error {code : Code} {destination : Word} {fault : Fault}
    (h : code.jumpTarget destination = .error fault) :
    fault = .jumpOutOfBounds destination ∧
        (code.size < destination.toNat ∨ Word.sizeBound ≤ destination.toNat) ∨
      fault = .jumpToInvalidDestination destination.toNat ∧ destination.toNat ≤ code.size ∧
        code[destination.toNat]? ≠ some Operation.jumpdestByte := by
  unfold jumpTarget at h
  split at h
  · next target hsize =>
      rw [← Word.toSize?_eq_some hsize] at h
      split at h
      · next hinside =>
          split at h
          · cases h
          · next hunmarked =>
              cases h
              exact .inr ⟨rfl, hinside, hunmarked⟩
      · next houtside =>
          cases h
          exact .inl ⟨rfl, .inl (Nat.lt_of_not_le houtside)⟩
  · next hsize =>
      cases h
      exact .inl ⟨rfl, .inr (Word.toSize?_eq_none hsize)⟩

end Code

namespace Operation

/-- What comes of the operands, the top one first.  The stack they come from is
not looked at. -/
def outcome (op : Operation) (m : Machine) (operands : List Word) : Except Fault Outcome :=
  match op, operands with
  | stop, _ => .ok ⟨[], m.memory, .stop⟩
  | unary op, [a] => .ok ⟨[op.apply a], m.memory, .next⟩
  | binary op, [a, b] => .ok ⟨[op.apply a b], m.memory, .next⟩
  | ternary op, [a, b, c] => .ok ⟨[op.apply a b c], m.memory, .next⟩
  | pop, _ => .ok ⟨[], m.memory, .next⟩
  | mload, [place] => Outcome.ofLoad m.memory place
  | mstore, [place, value] => Outcome.ofStore m.memory place value 32
  | mstore8, [place, value] => Outcome.ofStore m.memory place value 1
  | jump, [destination] => Outcome.ofJump m destination
  | jumpi, [destination, condition] =>
    if condition = 0#256 then .ok ⟨[], m.memory, .next⟩ else Outcome.ofJump m destination
  | pc, _ => .ok ⟨[Word.ofSize m.pc], m.memory, .next⟩
  | msize, _ => .ok ⟨[Word.ofSize m.memory.size], m.memory, .next⟩
  | jumpdest, _ => .ok ⟨[], m.memory, .next⟩
  | push width, _ => Outcome.ofImmediate m width
  | dup _, ws =>
    match ws.getLast? with
    | some w => .ok ⟨w :: ws, m.memory, .next⟩
    | none => .error .stackUnderflow
  | swap _, top :: ws =>
    match ws.getLast? with
    | some w => .ok ⟨w :: (ws.dropLast ++ [top]), m.memory, .next⟩
    | none => .error .stackUnderflow
  | ret, [place, extent] => Outcome.ofPayload m.memory place extent .ret
  | revert, [place, extent] => Outcome.ofPayload m.memory place extent .revert
  | _, _ => .error .stackUnderflow

/-- Where control goes and what machine there is then. -/
def effect (op : Operation) (m : Machine) : Except Fault (Flow × Machine) :=
  if m.stack.depth < op.inputs then .error .stackUnderflow
  else do
    let o ← op.outcome m (m.stack.words.take op.inputs)
    o.place m (m.stack.words.drop op.inputs)

theorem effect_of_lt {op : Operation} {m : Machine} (h : m.stack.depth < op.inputs) :
    op.effect m = .error .stackUnderflow :=
  if_pos h

theorem effect_of_operands (op : Operation) {m : Machine} (operands below : List Word)
    (hwords : m.stack.words = operands ++ below) (hlength : operands.length = op.inputs) :
    op.effect m = op.outcome m operands >>= fun o ↦ o.place m below := by
  have hdepth : ¬m.stack.depth < op.inputs := by
    rw [Stack.depth, hwords, List.length_append]
    omega
  rw [effect, if_neg hdepth, hwords, ← hlength, List.take_left, List.drop_left]

theorem exists_operands {op : Operation} {m : Machine} (h : op.inputs ≤ m.stack.depth) :
    ∃ operands below, m.stack.words = operands ++ below ∧ operands.length = op.inputs :=
  ⟨m.stack.words.take op.inputs, m.stack.words.drop op.inputs,
    (List.take_append_drop _ _).symm, List.length_take_of_le h⟩

theorem effect_eq_ok {op : Operation} {m after : Machine} {flow : Flow}
    (h : op.effect m = .ok (flow, after)) :
    ∃ operands below o, m.stack.words = operands ++ below ∧ operands.length = op.inputs ∧
      op.outcome m operands = .ok o ∧ (o.results ++ below).length ≤ Stack.capacity ∧
      flow = o.flow ∧ after = { m with stack := ⟨o.results ++ below⟩, memory := o.memory } := by
  by_cases hdepth : m.stack.depth < op.inputs
  · rw [effect_of_lt hdepth] at h
    cases h
  · obtain ⟨operands, below, hwords, hlength⟩ := exists_operands (Nat.le_of_not_lt hdepth)
    rw [effect_of_operands op operands below hwords hlength] at h
    obtain ⟨o, houtcome, hplace⟩ := Fault.bind_eq_ok_iff.mp h
    exact ⟨operands, below, o, hwords, hlength, houtcome, Outcome.place_eq_ok hplace⟩

theorem pc_of_effect {op : Operation} {m after : Machine} {flow : Flow}
    (h : op.effect m = .ok (flow, after)) : after.pc = m.pc := by
  obtain ⟨operands, below, o, -, -, -, -, -, rfl⟩ := effect_eq_ok h
  rfl

theorem effect_eq_error {op : Operation} {m : Machine} {fault : Fault}
    (h : op.effect m = .error fault) :
    m.stack.depth < op.inputs ∧ fault = .stackUnderflow ∨
      ∃ operands below, m.stack.words = operands ++ below ∧ operands.length = op.inputs ∧
        (op.outcome m operands = .error fault ∨
          fault = .stackOverflow ∧ ∃ o, op.outcome m operands = .ok o ∧
            Stack.capacity < (o.results ++ below).length) := by
  by_cases hdepth : m.stack.depth < op.inputs
  · rw [effect_of_lt hdepth] at h
    cases h
    exact .inl ⟨hdepth, rfl⟩
  · obtain ⟨operands, below, hwords, hlength⟩ := exists_operands (Nat.le_of_not_lt hdepth)
    refine .inr ⟨operands, below, hwords, hlength, ?_⟩
    rw [effect_of_operands op operands below hwords hlength] at h
    rcases Fault.bind_eq_error_iff.mp h with houtcome | ⟨o, houtcome, hplace⟩
    · exact .inl houtcome
    · obtain ⟨hfull, rfl⟩ := Outcome.place_eq_error hplace
      exact .inr ⟨rfl, o, houtcome, hfull⟩

/-! ## Case analysis -/

@[elab_as_elim] theorem outcome_cases (m : Machine)
    {motive : Operation → List Word → Except Fault Outcome → Prop}
    (stop : motive stop [] (.ok ⟨[], m.memory, .stop⟩))
    (unary : ∀ op a, motive (unary op) [a] (.ok ⟨[op.apply a], m.memory, .next⟩))
    (binary : ∀ op a b, motive (binary op) [a, b] (.ok ⟨[op.apply a b], m.memory, .next⟩))
    (ternary : ∀ op a b c,
      motive (ternary op) [a, b, c] (.ok ⟨[op.apply a b c], m.memory, .next⟩))
    (pop : ∀ a, motive pop [a] (.ok ⟨[], m.memory, .next⟩))
    (mload : ∀ place, motive mload [place] (Outcome.ofLoad m.memory place))
    (mstore : ∀ place value, motive mstore [place, value] (Outcome.ofStore m.memory place value 32))
    (mstore8 : ∀ place value, motive mstore8 [place, value] (Outcome.ofStore m.memory place value 1))
    (jump : ∀ destination, motive jump [destination] (Outcome.ofJump m destination))
    (pass : ∀ destination, motive jumpi [destination, 0#256] (.ok ⟨[], m.memory, .next⟩))
    (branch : ∀ destination condition, condition ≠ 0#256 →
      motive jumpi [destination, condition] (Outcome.ofJump m destination))
    (pc : motive pc [] (.ok ⟨[Word.ofSize m.pc], m.memory, .next⟩))
    (msize : motive msize [] (.ok ⟨[Word.ofSize m.memory.size], m.memory, .next⟩))
    (jumpdest : motive jumpdest [] (.ok ⟨[], m.memory, .next⟩))
    (push : ∀ width, motive (push width) [] (Outcome.ofImmediate m width))
    (dup_zero : motive (dup 0) [] (.error .stackUnderflow))
    (dup : ∀ above w, motive (dup (above.length + 1)) (above ++ [w])
      (.ok ⟨w :: (above ++ [w]), m.memory, .next⟩))
    (swap_zero : ∀ top, motive (swap 0) [top] (.error .stackUnderflow))
    (swap : ∀ top above w, motive (swap (above.length + 1)) (top :: (above ++ [w]))
      (.ok ⟨w :: (above ++ [top]), m.memory, .next⟩))
    (ret : ∀ place extent, motive ret [place, extent] (Outcome.ofPayload m.memory place extent .ret))
    (revert : ∀ place extent,
      motive revert [place, extent] (Outcome.ofPayload m.memory place extent .revert))
    {op : Operation} {operands : List Word} (hlength : operands.length = op.inputs) :
    motive op operands (op.outcome m operands) := by
  match op, operands, hlength with
  | .stop, [], _ => exact stop
  | .unary op, [a], _ => exact unary op a
  | .binary op, [a, b], _ => exact binary op a b
  | .ternary op, [a, b, c], _ => exact ternary op a b c
  | .pop, [a], _ => exact pop a
  | .mload, [place], _ => exact mload place
  | .mstore, [place, value], _ => exact mstore place value
  | .mstore8, [place, value], _ => exact mstore8 place value
  | .jump, [destination], _ => exact jump destination
  | .jumpi, [destination, condition], _ =>
      by_cases hzero : condition = 0#256
      · subst hzero
        exact pass destination
      · simpa [outcome, hzero] using branch destination condition hzero
  | .pc, [], _ => exact pc
  | .msize, [], _ => exact msize
  | .jumpdest, [], _ => exact jumpdest
  | .push width, [], _ => exact push width
  | .dup position, operands, hlength =>
      rcases List.eq_nil_or_concat operands with rfl | ⟨above, w, rfl⟩
      · cases hlength
        exact dup_zero
      · have hposition : above.length + 1 = position := by simpa [inputs] using hlength
        subst hposition
        simpa [outcome] using dup above w
  | .swap distance, top :: operands, hlength =>
      rcases List.eq_nil_or_concat operands with rfl | ⟨above, w, rfl⟩
      · cases hlength
        exact swap_zero top
      · have hdistance : above.length + 1 = distance := by simpa [inputs] using hlength
        subst hdistance
        simpa [outcome] using swap top above w
  | .ret, [place, extent], _ => exact ret place extent
  | .revert, [place, extent], _ => exact revert place extent

end Operation

/-! ## What outcomes keep to -/

namespace Outcome

theorem toOffset_eq_error {place : Word} {fault : Fault} (h : place.toOffset = .error fault) :
    fault = .invalidMemoryOffset := by
  unfold Word.toOffset at h
  split at h
  · cases h
  · cases h
    rfl

theorem ofLoad_eq_error {m : Memory} {place : Word} {fault : Fault}
    (h : ofLoad m place = .error fault) : fault = .invalidMemoryOffset := by
  rcases Fault.bind_eq_error_iff.mp h with h | ⟨offset, -, h⟩
  · exact toOffset_eq_error h
  · rcases Fault.bind_eq_error_iff.mp h with h | ⟨⟨bytes, after⟩, hread, h⟩
    · exact Memory.read_eq_error (.inr rfl) h
    · obtain ⟨size, -, rfl, -⟩ := Memory.read_eq_ok hread
      dsimp only at h
      rw [Word.ofBytes_of_length_le (Nat.le_of_eq (Memory.length_window _ _ _))] at h
      cases h

theorem ofStore_eq_error {m : Memory} {place value : Word} {width : Nat} {fault : Fault}
    (hwidth : width = 1 ∨ width = 32) (h : ofStore m place value width = .error fault) :
    fault = .invalidMemoryOffset := by
  rcases Fault.bind_eq_error_iff.mp h with h | ⟨offset, -, h⟩
  · exact toOffset_eq_error h
  · rcases Fault.bind_eq_error_iff.mp h with h | ⟨after, -, h⟩
    · exact Memory.write_eq_error hwidth h
    · cases h

theorem ofJump_eq_error {m : Machine} {destination : Word} {fault : Fault}
    (h : ofJump m destination = .error fault) : m.jumpTarget destination = .error fault := by
  rcases Fault.bind_eq_error_iff.mp h with h | ⟨target, -, h⟩
  · exact h
  · cases h

theorem ofImmediate_eq_error {m : Machine} {width : Nat} {fault : Fault}
    (h : ofImmediate m width = .error fault) : m.immediate width = .error fault := by
  rcases Fault.bind_eq_error_iff.mp h with h | ⟨value, -, h⟩
  · exact h
  · cases h

theorem ofPayload_eq_error {m : Memory} {place extent : Word} {flow : List UInt8 → Flow}
    {fault : Fault} (h : ofPayload m place extent flow = .error fault) :
    fault = .invalidMemoryOffset := by
  rcases Fault.bind_eq_error_iff.mp h with h | ⟨offset, -, h⟩
  · exact toOffset_eq_error h
  · rcases Fault.bind_eq_error_iff.mp h with h | ⟨length, -, h⟩
    · exact toOffset_eq_error h
    · rcases Fault.bind_eq_error_iff.mp h with h | ⟨⟨bytes, after⟩, -, h⟩
      · exact Memory.readRange_eq_error h
      · cases h

theorem ofLoad_eq_ok {m : Memory} {place : Word} {o : Outcome} (h : ofLoad m place = .ok o) :
    ∃ value after, Memory.Successor m after ∧ o = ⟨[value], after, .next⟩ := by
  obtain ⟨offset, -, h⟩ := Fault.bind_eq_ok_iff.mp h
  obtain ⟨⟨bytes, after⟩, hread, h⟩ := Fault.bind_eq_ok_iff.mp h
  obtain ⟨value, -, h⟩ := Fault.bind_eq_ok_iff.mp h
  cases h
  exact ⟨value, after, .read hread, rfl⟩

theorem ofStore_eq_ok {m : Memory} {place value : Word} {width : Nat} {o : Outcome}
    (h : ofStore m place value width = .ok o) :
    ∃ after, Memory.Successor m after ∧ o = ⟨[], after, .next⟩ := by
  obtain ⟨offset, -, h⟩ := Fault.bind_eq_ok_iff.mp h
  obtain ⟨after, hwrite, h⟩ := Fault.bind_eq_ok_iff.mp h
  cases h
  exact ⟨after, .write hwrite, rfl⟩

theorem ofJump_eq_ok {m : Machine} {destination : Word} {o : Outcome}
    (h : ofJump m destination = .ok o) :
    ∃ target, m.jumpTarget destination = .ok target ∧ o = ⟨[], m.memory, .jump target⟩ := by
  obtain ⟨target, htarget, h⟩ := Fault.bind_eq_ok_iff.mp h
  cases h
  exact ⟨target, htarget, rfl⟩

theorem ofImmediate_eq_ok {m : Machine} {width : Nat} {o : Outcome}
    (h : ofImmediate m width = .ok o) :
    ∃ value, m.immediate width = .ok value ∧ o = ⟨[value], m.memory, .next⟩ := by
  obtain ⟨value, hvalue, h⟩ := Fault.bind_eq_ok_iff.mp h
  cases h
  exact ⟨value, hvalue, rfl⟩

theorem ofPayload_eq_ok {m : Memory} {place extent : Word} {flow : List UInt8 → Flow}
    {o : Outcome} (h : ofPayload m place extent flow = .ok o) :
    ∃ payload after, Memory.Successor m after ∧ o = ⟨[], after, flow payload⟩ := by
  obtain ⟨offset, -, h⟩ := Fault.bind_eq_ok_iff.mp h
  obtain ⟨length, -, h⟩ := Fault.bind_eq_ok_iff.mp h
  obtain ⟨⟨payload, after⟩, hread, h⟩ := Fault.bind_eq_ok_iff.mp h
  cases h
  exact ⟨payload, after, .readRange hread, rfl⟩

/-- Memory follows on memory, control stays in the code, and an operation that
halts the machine is one of the two that may. -/
structure Regular (op : Operation) (m : Machine) (o : Outcome) : Prop where
  memory : Memory.Successor m.memory o.memory
  next : o.flow = .next → m.pc < m.code.size → m.pc + 1 + op.immediateSize ≤ m.code.size
  jump : ∀ target, o.flow = .jump target → m.code[target]? = some Operation.jumpdestByte
  stop : o.flow = .stop → op = .stop
  ret : ∀ payload, o.flow = .ret payload → op = .ret

namespace Regular

variable {op : Operation} {m : Machine} {o : Outcome}

theorem ofNext (hsize : op.immediateSize = 0) (results : List Word) {memory : Memory}
    (hmemory : Memory.Successor m.memory memory) : Regular op m ⟨results, memory, .next⟩ where
  memory := hmemory
  next := fun _ hpc ↦ by
    rw [hsize]
    exact hpc
  jump := nofun
  stop := nofun
  ret := nofun

theorem ofLoad {place : Word} (hsize : op.immediateSize = 0)
    (h : Outcome.ofLoad m.memory place = .ok o) : Regular op m o := by
  obtain ⟨value, after, hafter, rfl⟩ := ofLoad_eq_ok h
  exact ofNext hsize _ hafter

theorem ofStore {place value : Word} {width : Nat} (hsize : op.immediateSize = 0)
    (h : Outcome.ofStore m.memory place value width = .ok o) : Regular op m o := by
  obtain ⟨after, hafter, rfl⟩ := ofStore_eq_ok h
  exact ofNext hsize _ hafter

theorem ofJump {destination : Word} (h : Outcome.ofJump m destination = .ok o) :
    Regular op m o := by
  obtain ⟨target, htarget, rfl⟩ := ofJump_eq_ok h
  refine ⟨.refl _, nofun, ?_, nofun, nofun⟩
  intro t ht
  cases ht
  exact (Code.jumpTarget_eq_ok htarget).2

theorem ofImmediate {width : Nat}
    (h : Outcome.ofImmediate m width = .ok o) : Regular (.push width) m o := by
  obtain ⟨value, hvalue, rfl⟩ := ofImmediate_eq_ok h
  refine ⟨.refl _, ?_, nofun, nofun, nofun⟩
  intro _ _
  have hinside := Code.immediate_eq_ok hvalue
  simp only [Operation.immediateSize]
  omega

end Regular

end Outcome

namespace Operation

theorem outcome_regular {op : Operation} {m : Machine} {operands : List Word} {o : Outcome}
    (hlength : operands.length = op.inputs) (h : op.outcome m operands = .ok o) :
    Outcome.Regular op m o := by
  refine outcome_cases m (motive := fun op _ r ↦ ∀ o, r = .ok o → Outcome.Regular op m o)
    ?stop ?unary ?binary ?ternary ?pop ?mload ?mstore ?mstore8 ?jump ?pass ?branch ?pc ?msize
    ?jumpdest ?push ?dup_zero ?dup ?swap_zero ?swap ?ret ?revert hlength o h
  case unary | binary | ternary | pop | pass | pc | msize | jumpdest | dup | swap =>
    intros
    cases ‹_ = Except.ok _›
    exact .ofNext rfl _ (.refl _)
  case stop =>
    rintro o ⟨⟩
    exact ⟨.refl _, nofun, nofun, fun _ ↦ rfl, nofun⟩
  case mload => exact fun _ _ h ↦ .ofLoad rfl h
  case mstore => exact fun _ _ _ h ↦ .ofStore rfl h
  case mstore8 => exact fun _ _ _ h ↦ .ofStore rfl h
  case jump => exact fun _ _ h ↦ .ofJump h
  case branch => exact fun _ _ _ _ h ↦ .ofJump h
  case push => exact fun _ _ h ↦ .ofImmediate h
  case dup_zero => exact nofun
  case swap_zero => exact nofun
  case ret =>
    intro place extent o h
    obtain ⟨payload, after, hafter, rfl⟩ := Outcome.ofPayload_eq_ok h
    exact ⟨hafter, nofun, nofun, nofun, fun _ _ ↦ rfl⟩
  case revert =>
    intro place extent o h
    obtain ⟨payload, after, hafter, rfl⟩ := Outcome.ofPayload_eq_ok h
    exact ⟨hafter, nofun, nofun, nofun, nofun⟩

theorem effect_regular {op : Operation} {m after : Machine} {flow : Flow}
    (h : op.effect m = .ok (flow, after)) :
    ∃ o below, Outcome.Regular op m o ∧ (o.results ++ below).length ≤ Stack.capacity ∧
      flow = o.flow ∧ after = { m with stack := ⟨o.results ++ below⟩, memory := o.memory } := by
  obtain ⟨operands, below, o, -, hlength, houtcome, hplaced⟩ := effect_eq_ok h
  exact ⟨o, below, outcome_regular hlength houtcome, hplaced⟩

/-! ## Jumps -/

/-- Whether an operation that finds these words on the stack goes where the first
of them says. -/
def branches : Operation → List Word → Bool
  | jump, _ => true
  | jumpi, _ :: condition :: _ => condition != 0#256
  | _, _ => false

/-- Operands that send control on do not branch; those that send it elsewhere do,
and what comes of them is the position that the first one names. -/
structure Directed (op : Operation) (m : Machine) (operands : List Word) (o : Outcome) : Prop where
  next : o.flow = .next → ∀ below, op.branches (operands ++ below) = false
  jump : ∀ target, o.flow = .jump target → (∀ below, op.branches (operands ++ below) = true) ∧
    ∃ destination rest, operands = destination :: rest ∧
      m.jumpTarget destination = .ok target ∧ o.results = []

namespace Directed

variable {op : Operation} {m : Machine} {operands : List Word} {o : Outcome}

theorem ofNext (hbranches : ∀ below, op.branches (operands ++ below) = false)
    (results : List Word) (memory : Memory) : Directed op m operands ⟨results, memory, .next⟩ :=
  ⟨fun _ ↦ hbranches, nofun⟩

theorem ofJump {destination : Word} {rest : List Word}
    (hbranches : ∀ below, op.branches (destination :: rest ++ below) = true)
    (h : Outcome.ofJump m destination = .ok o) : Directed op m (destination :: rest) o := by
  obtain ⟨target, htarget, rfl⟩ := Outcome.ofJump_eq_ok h
  refine ⟨nofun, ?_⟩
  rintro t ⟨⟩
  exact ⟨hbranches, destination, rest, rfl, htarget, rfl⟩

end Directed

theorem outcome_directed {op : Operation} {m : Machine} {operands : List Word} {o : Outcome}
    (hlength : operands.length = op.inputs) (h : op.outcome m operands = .ok o) :
    Directed op m operands o := by
  refine outcome_cases m
    (motive := fun op operands r ↦ ∀ o, r = .ok o → Directed op m operands o)
    ?stop ?unary ?binary ?ternary ?pop ?mload ?mstore ?mstore8 ?jump ?pass ?branch ?pc ?msize
    ?jumpdest ?push ?dup_zero ?dup ?swap_zero ?swap ?ret ?revert hlength o h
  case unary | binary | ternary | pop | pass | pc | msize | jumpdest | dup | swap =>
    intros
    cases ‹_ = Except.ok _›
    exact .ofNext (fun _ ↦ rfl) _ _
  case stop =>
    rintro o ⟨⟩
    exact ⟨nofun, nofun⟩
  case mload =>
    intro place o h
    obtain ⟨value, after, -, rfl⟩ := Outcome.ofLoad_eq_ok h
    exact .ofNext (fun _ ↦ rfl) _ _
  case mstore | mstore8 =>
    intro place value o h
    obtain ⟨after, -, rfl⟩ := Outcome.ofStore_eq_ok h
    exact .ofNext (fun _ ↦ rfl) _ _
  case jump => exact fun _ _ h ↦ .ofJump (fun _ ↦ rfl) h
  case branch =>
    intro destination condition hcondition o h
    refine .ofJump (fun below ↦ ?_) h
    simpa [branches] using hcondition
  case push =>
    intro width o h
    obtain ⟨value, -, rfl⟩ := Outcome.ofImmediate_eq_ok h
    exact .ofNext (fun _ ↦ rfl) _ _
  case dup_zero => exact nofun
  case swap_zero => exact nofun
  case ret | revert =>
    intro place extent o h
    obtain ⟨payload, after, -, rfl⟩ := Outcome.ofPayload_eq_ok h
    exact ⟨nofun, nofun⟩

theorem branches_of_effect {op : Operation} {m after : Machine} {target : Nat}
    (h : op.effect m = .ok (.jump target, after)) : op.branches m.stack.words = true := by
  obtain ⟨operands, below, o, hwords, hlength, houtcome, -, hflow, -⟩ := effect_eq_ok h
  rw [hwords]
  exact ((outcome_directed hlength houtcome).jump target hflow.symm).1 below

/-! ## Refusals -/

def accessesMemory : Operation → Bool
  | mload | mstore | mstore8 | ret | revert => true
  | _ => false

/-- Why operands, though there are enough of them, come to a fault. -/
inductive Refusal (m : Machine) : Operation → List Word → Fault → Prop where
  | access {op : Operation} {operands : List Word} (hop : op.accessesMemory = true) :
      Refusal m op operands .invalidMemoryOffset
  | jump {destination : Word} {fault : Fault}
      (htarget : m.jumpTarget destination = .error fault) : Refusal m jump [destination] fault
  | branch {destination condition : Word} {fault : Fault} (hcondition : condition ≠ 0#256)
      (htarget : m.jumpTarget destination = .error fault) :
      Refusal m jumpi [destination, condition] fault
  | immediate {width : Nat} {fault : Fault} (hvalue : m.immediate width = .error fault) :
      Refusal m (push width) [] fault
  | dup_zero : Refusal m (dup 0) [] .stackUnderflow
  | swap_zero {top : Word} : Refusal m (swap 0) [top] .stackUnderflow

theorem outcome_eq_error {op : Operation} {m : Machine} {operands : List Word} {fault : Fault}
    (hlength : operands.length = op.inputs) (h : op.outcome m operands = .error fault) :
    Refusal m op operands fault := by
  refine outcome_cases m
    (motive := fun op operands r ↦ ∀ fault, r = .error fault → Refusal m op operands fault)
    ?stop ?unary ?binary ?ternary ?pop ?mload ?mstore ?mstore8 ?jump ?pass ?branch ?pc ?msize
    ?jumpdest ?push ?dup_zero ?dup ?swap_zero ?swap ?ret ?revert hlength fault h
  case stop | unary | binary | ternary | pop | pass | pc | msize | jumpdest | dup | swap =>
    intros
    contradiction
  case mload =>
    intro place fault h
    rw [Outcome.ofLoad_eq_error h]
    exact .access rfl
  case mstore =>
    intro place value fault h
    rw [Outcome.ofStore_eq_error (.inr rfl) h]
    exact .access rfl
  case mstore8 =>
    intro place value fault h
    rw [Outcome.ofStore_eq_error (.inl rfl) h]
    exact .access rfl
  case ret =>
    intro place extent fault h
    rw [Outcome.ofPayload_eq_error h]
    exact .access rfl
  case revert =>
    intro place extent fault h
    rw [Outcome.ofPayload_eq_error h]
    exact .access rfl
  case jump => exact fun _ _ h ↦ .jump (Outcome.ofJump_eq_error h)
  case branch => exact fun _ _ hcondition _ h ↦ .branch hcondition (Outcome.ofJump_eq_error h)
  case push => exact fun _ _ h ↦ .immediate (Outcome.ofImmediate_eq_error h)
  case dup_zero =>
    rintro fault ⟨⟩
    exact .dup_zero
  case swap_zero =>
    rintro top fault ⟨⟩
    exact .swap_zero

theorem Refusal.ofOperands {op : Operation} {m : Machine} {operands : List Word} {fault : Fault}
    (h : Refusal m op operands fault) : fault.ofOperands = true := by
  cases h with
  | access | dup_zero | swap_zero => rfl
  | jump htarget | branch _ htarget =>
      rcases Code.jumpTarget_eq_error htarget with ⟨rfl, -⟩ | ⟨rfl, -⟩
      · rfl
      · rfl
  | immediate hvalue =>
      rcases Code.immediate_eq_error hvalue with ⟨rfl, -⟩ | ⟨rfl, -⟩
      · rfl
      · rfl

/-- An operation has no concern with the step limit, with bytes that encode
nothing, or with words and widths that it is never given. -/
theorem effect_fault {op : Operation} {m : Machine} {fault : Fault}
    (h : op.effect m = .error fault) : fault = .stackOverflow ∨ fault.ofOperands = true := by
  rcases effect_eq_error h with ⟨-, rfl⟩ | ⟨operands, below, -, hlength, houtcome | ⟨rfl, -⟩⟩
  · exact .inr rfl
  · exact .inr (outcome_eq_error hlength houtcome).ofOperands
  · exact .inl rfl

theorem effect_ne_stepLimitExceeded (op : Operation) (m : Machine) (limit : Nat) :
    op.effect m ≠ .error (.stepLimitExceeded limit) := by
  intro h
  rcases effect_fault h with h | h <;> cases h

theorem effect_ne_invalidOpcode (op : Operation) (m : Machine) (byte : UInt8) :
    op.effect m ≠ .error (.invalidOpcode byte) := by
  intro h
  rcases effect_fault h with h | h <;> cases h

end Operation

end WordMachine
