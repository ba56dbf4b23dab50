import WordMachine.Proofs.Outcome

/-!
# Operations in place

Carrying out an operation changes the machine bit by bit, and some changes come
before the last check: operands are taken off before the result is pushed, and
memory grows before the loaded word is put on the stack.  `perform_eq_effect`
says that this comes to the effect of the operation, all of it or nothing, on
every stack within its capacity.  A longer stack, which no program reaches, would
lose its operands to a fault: `perform_unary_of_overfull`.
-/

namespace WordMachine

/-! ## The steps of an action -/

namespace Stack

theorem exists_split {words : List Word} {i : Nat} (h : i < words.length) :
    ∃ above w below, above.length = i ∧ words = above ++ w :: below := by
  refine ⟨words.take i, words[i], words.drop (i + 1), ?_, ?_⟩
  · exact List.length_take_of_le (Nat.le_of_lt h)
  · simp

theorem top_one (a : Word) (rest : List Word) : top ⟨a :: rest⟩ 1 = .ok #v[a] := rfl

theorem top_two (a b : Word) (rest : List Word) : top ⟨a :: b :: rest⟩ 2 = .ok #v[a, b] := rfl

theorem top_three (a b c : Word) (rest : List Word) :
    top ⟨a :: b :: c :: rest⟩ 3 = .ok #v[a, b, c] := rfl

end Stack

namespace Action

variable {α β : Type}

/-- How an action ends that is done as a whole or not at all. -/
def allOrNothing (m : Machine) : Except Fault (α × Machine) → EStateM.Result Fault Machine α
  | .ok (a, after) => .ok a after
  | .error fault => .error fault m

@[simp] theorem allOrNothing_ok (m after : Machine) (a : α) :
    allOrNothing m (.ok (a, after)) = .ok a after := rfl

@[simp] theorem allOrNothing_error (m : Machine) (fault : Fault) :
    allOrNothing m (.error fault : Except Fault (α × Machine)) = .error fault m := rfl

theorem allOrNothing_eq_ok {m after : Machine} {x : Except Fault (α × Machine)} {a : α}
    (h : allOrNothing m x = .ok a after) : x = .ok (a, after) := by
  match x, h with
  | .ok _, rfl => rfl

@[simp] theorem run_map (f : α → β) (x : Action α) (m : Machine) :
    (f <$> x).run m = match x.run m with
      | .ok a after => .ok (f a) after
      | .error fault after => .error fault after := by
  cases h : x.run m <;> simp_all [EStateM.run, Functor.map, EStateM.map]

@[simp] theorem liftM_eq_settle (x : Except Fault α) : (liftM x : Action α) = settle x := rfl

@[simp] theorem run_settle (x : Except Fault α) (m : Machine) :
    (settle x).run m = allOrNothing m (do return (← x, m)) := by
  cases x <;> rfl

@[simp] theorem run_top (n : Nat) (m : Machine) :
    (top n).run m = allOrNothing m (do return (← m.stack.top n, m)) :=
  run_settle _ _

@[simp] theorem run_restack (f : Stack → Except Fault Stack) (m : Machine) :
    (restack f).run m = allOrNothing m (do return ((), { m with stack := ← f m.stack })) := by
  cases h : f m.stack <;> simp [restack, h]

@[simp] theorem run_take (n : Nat) (m : Machine) :
    (take n).run m = allOrNothing m (do
      return (← m.stack.top n, { m with stack := ⟨m.stack.words.drop n⟩ })) := by
  cases h : m.stack.top n <;> simp [take, h]

theorem run_push (m : Machine) (w : Word) (h : m.stack.depth < Stack.capacity) :
    (push w).run m = .ok () { m with stack := ⟨w :: m.stack.words⟩ } := by
  simp [push, Stack.push, h]

theorem run_drop (m : Machine) (n : Nat) (h : n ≤ m.stack.depth) :
    (drop n).run m = .ok () { m with stack := ⟨m.stack.words.drop n⟩ } := by
  simp [drop, Stack.dropN, h]

@[simp] theorem run_expand (offset length : Nat) (m : Machine) :
    (expand offset length).run m = allOrNothing m (do
      return ((), { m with memory := m.memory.growTo (← m.memory.reach offset length) })) := by
  cases h : m.memory.reach offset length <;> simp [expand, h]

@[simp] theorem run_read (offset length : Nat) (m : Machine) :
    (read offset length).run m = allOrNothing m (do
      let (bytes, after) ← m.memory.read offset length
      return (bytes, { m with memory := after })) := by
  cases hwidth : Memory.checkWidth length <;> cases h : m.memory.reach offset length <;>
    simp [read, Memory.read, hwidth, h]

@[simp] theorem run_write (offset : Nat) (bytes : List UInt8) (length : Nat) (m : Machine) :
    (write offset bytes length).run m = allOrNothing m (do
      return ((), { m with memory := ← m.memory.write offset bytes length })) := by
  cases hwidth : Memory.checkWidth length <;> cases h : m.memory.reach offset length <;>
    simp [write, Memory.write, hwidth, h]

@[simp] theorem run_readRange (offset length : Nat) (m : Machine) :
    (readRange offset length).run m = allOrNothing m (do
      let (bytes, after) ← m.memory.readRange offset length
      return (bytes, { m with memory := after })) := by
  by_cases hzero : length = 0
  · subst hzero
    simp [readRange, Memory.readRange, Memory.reachRange, Memory.window]
  · cases h : m.memory.reach offset length <;>
      simp [readRange, Memory.readRange, Memory.reachRange, hzero, h]

end Action

namespace Operation

open WordMachine.Action

/-! ## Operations in place

The stack is split as far as the operation looks; a shorter one faults at the
first action. -/

theorem perform_idle {op : Operation} {flow : Flow} (hperform : op.perform = pure flow)
    (hinputs : op.inputs = 0) (houtcome : ∀ m, op.outcome m [] = .ok ⟨[], m.memory, flow⟩)
    {m : Machine} (h : m.stack.depth ≤ Stack.capacity) :
    op.perform.run m = allOrNothing m (op.effect m) := by
  rw [hperform, effect_of_operands op [] m.stack.words rfl hinputs.symm, houtcome]
  simp [Outcome.place_nil, h]

theorem perform_unary (op : UnaryOperation) {m : Machine} (h : m.stack.depth ≤ Stack.capacity) :
    (unary op).perform.run m = allOrNothing m ((unary op).effect m) := by
  obtain ⟨code, pc, ⟨words⟩, memory⟩ := m
  rcases words with _ | ⟨a, rest⟩
  · rfl
  · have hroom : Stack.depth ⟨rest⟩ < Stack.capacity := h
    rw [effect_of_operands (unary op) [a] rest rfl rfl]
    simp [perform, Stack.top_one, run_push, outcome, Outcome.place_singleton, hroom]

/-- On more words than the stack may hold the operand is gone when the fault is
found. -/
theorem perform_unary_of_overfull (op : UnaryOperation) (code : Code) (pc : Nat) (a : Word)
    (rest : List Word) (memory : Memory) (h : Stack.capacity ≤ Stack.depth ⟨rest⟩) :
    (unary op).perform.run ⟨code, pc, ⟨a :: rest⟩, memory⟩ =
      .error .stackOverflow ⟨code, pc, ⟨rest⟩, memory⟩ := by
  simp [perform, Stack.top_one, Action.push, Stack.push, Nat.not_lt.mpr h]

theorem perform_binary (op : BinaryOperation) {m : Machine}
    (h : m.stack.depth ≤ Stack.capacity) :
    (binary op).perform.run m = allOrNothing m ((binary op).effect m) := by
  obtain ⟨code, pc, ⟨words⟩, memory⟩ := m
  rcases words with _ | ⟨a, _ | ⟨b, rest⟩⟩
  · rfl
  · rfl
  · have hroom : Stack.depth ⟨rest⟩ < Stack.capacity := Nat.le_of_succ_le h
    rw [effect_of_operands (binary op) [a, b] rest rfl rfl]
    simp [perform, Stack.top_two, run_push, outcome, Outcome.place_singleton, hroom]

theorem perform_ternary (op : TernaryOperation) {m : Machine}
    (h : m.stack.depth ≤ Stack.capacity) :
    (ternary op).perform.run m = allOrNothing m ((ternary op).effect m) := by
  obtain ⟨code, pc, ⟨words⟩, memory⟩ := m
  rcases words with _ | ⟨a, _ | ⟨b, _ | ⟨c, rest⟩⟩⟩
  · rfl
  · rfl
  · rfl
  · have hroom : Stack.depth ⟨rest⟩ < Stack.capacity :=
      Nat.le_of_succ_le (Nat.le_of_succ_le h)
    rw [effect_of_operands (ternary op) [a, b, c] rest rfl rfl]
    simp [perform, Stack.top_three, run_push, outcome, Outcome.place_singleton, hroom]

theorem perform_pop {m : Machine} (h : m.stack.depth ≤ Stack.capacity) :
    pop.perform.run m = allOrNothing m (pop.effect m) := by
  obtain ⟨code, pc, ⟨words⟩, memory⟩ := m
  rcases words with _ | ⟨a, rest⟩
  · rfl
  · have hroom : Stack.depth ⟨rest⟩ ≤ Stack.capacity := Nat.le_of_succ_le h
    rw [effect_of_operands pop [a] rest rfl rfl]
    simp [perform, Stack.pop, outcome, Outcome.place_nil, hroom]

/-- Memory has grown by the time the word is read, which cannot fail. -/
theorem perform_mload {m : Machine} (h : m.stack.depth ≤ Stack.capacity) :
    mload.perform.run m = allOrNothing m (mload.effect m) := by
  obtain ⟨code, pc, ⟨words⟩, memory⟩ := m
  rcases words with _ | ⟨a, rest⟩
  · rfl
  · have hroom : Stack.depth ⟨rest⟩ < Stack.capacity := h
    rw [effect_of_operands mload [a] rest rfl rfl]
    simp only [perform, outcome, Outcome.ofLoad]
    cases hoffset : a.toOffset with
    | error fault => simp [Stack.top_one, hoffset]
    | ok offset =>
        cases hread : memory.read offset 32 with
        | error fault => simp [Stack.top_one, hoffset, hread]
        | ok r =>
            obtain ⟨bytes, after⟩ := r
            have hbytes : bytes.length ≤ 32 := by
              obtain ⟨size, -, rfl, -⟩ := Memory.read_eq_ok hread
              exact Nat.le_of_eq (Memory.length_window _ _ _)
            have hvalue := Word.ofBytes_of_length_le hbytes
            have hdrop : (1 : Nat) ≤ Stack.depth ⟨a :: rest⟩ := Nat.le_add_left 1 _
            simp [Stack.top_one, hoffset, hread, hvalue, run_drop, hdrop, run_push, hroom,
              Outcome.place_singleton]

theorem perform_store {op : Operation} {width : Nat} (hperform : op.perform = store width)
    (hinputs : op.inputs = 2)
    (houtcome : ∀ m place value,
      op.outcome m [place, value] = Outcome.ofStore m.memory place value width)
    {m : Machine} (h : m.stack.depth ≤ Stack.capacity) :
    op.perform.run m = allOrNothing m (op.effect m) := by
  obtain ⟨code, pc, ⟨words⟩, memory⟩ := m
  rcases words with _ | ⟨place, _ | ⟨value, rest⟩⟩
  · rw [hperform, effect_of_lt (by simp [hinputs, Stack.depth])]
    rfl
  · rw [hperform, effect_of_lt (by simp [hinputs, Stack.depth])]
    rfl
  · have hroom : Stack.depth ⟨rest⟩ ≤ Stack.capacity := Nat.le_of_succ_le (Nat.le_of_succ_le h)
    have hdrop : 2 ≤ Stack.depth ⟨place :: value :: rest⟩ := Nat.le_add_left 2 _
    rw [hperform, effect_of_operands op [place, value] rest rfl hinputs.symm, houtcome]
    cases hoffset : place.toOffset with
    | error fault => simp [store, Outcome.ofStore, Stack.top_two, hoffset]
    | ok offset =>
        cases hwrite : memory.write offset (value.toBytes width) width with
        | error fault => simp [store, Outcome.ofStore, Stack.top_two, hoffset, hwrite]
        | ok after =>
            simp [store, Outcome.ofStore, Stack.top_two, hoffset, hwrite, run_drop, hdrop,
              Outcome.place_nil, hroom]

theorem perform_payload {op : Operation} {flow : List UInt8 → Flow}
    (hperform : op.perform = do return flow (← payload)) (hinputs : op.inputs = 2)
    (houtcome : ∀ m place extent,
      op.outcome m [place, extent] = Outcome.ofPayload m.memory place extent flow)
    {m : Machine} (h : m.stack.depth ≤ Stack.capacity) :
    op.perform.run m = allOrNothing m (op.effect m) := by
  obtain ⟨code, pc, ⟨words⟩, memory⟩ := m
  rcases words with _ | ⟨place, _ | ⟨extent, rest⟩⟩
  · rw [hperform, effect_of_lt (by simp [hinputs, Stack.depth])]
    rfl
  · rw [hperform, effect_of_lt (by simp [hinputs, Stack.depth])]
    rfl
  · have hroom : Stack.depth ⟨rest⟩ ≤ Stack.capacity := Nat.le_of_succ_le (Nat.le_of_succ_le h)
    have hdrop : 2 ≤ Stack.depth ⟨place :: extent :: rest⟩ := Nat.le_add_left 2 _
    rw [hperform, effect_of_operands op [place, extent] rest rfl hinputs.symm, houtcome]
    cases hoffset : place.toOffset with
    | error fault => simp [payload, Outcome.ofPayload, Stack.top_two, hoffset]
    | ok offset =>
        cases hlength : extent.toOffset with
        | error fault => simp [payload, Outcome.ofPayload, Stack.top_two, hoffset, hlength]
        | ok length =>
            cases hread : memory.readRange offset length with
            | error fault =>
                simp [payload, Outcome.ofPayload, Stack.top_two, hoffset, hlength, hread]
            | ok r =>
                simp [payload, Outcome.ofPayload, Stack.top_two, hoffset, hlength, hread,
                  run_drop, hdrop, Outcome.place_nil, hroom]

theorem perform_jump {m : Machine} (h : m.stack.depth ≤ Stack.capacity) :
    jump.perform.run m = allOrNothing m (jump.effect m) := by
  obtain ⟨code, pc, ⟨words⟩, memory⟩ := m
  rcases words with _ | ⟨destination, rest⟩
  · rfl
  · have hroom : Stack.depth ⟨rest⟩ ≤ Stack.capacity := Nat.le_of_succ_le h
    have hdrop : 1 ≤ Stack.depth ⟨destination :: rest⟩ := Nat.le_add_left 1 _
    rw [effect_of_operands jump [destination] rest rfl rfl]
    simp only [perform, outcome, Outcome.ofJump]
    cases htarget : Machine.jumpTarget ⟨code, pc, ⟨destination :: rest⟩, memory⟩ destination with
    | error fault => simp [Stack.top_one, htarget]
    | ok target => simp [Stack.top_one, htarget, run_drop, hdrop, Outcome.place_nil, hroom]

theorem perform_jumpi {m : Machine} (h : m.stack.depth ≤ Stack.capacity) :
    jumpi.perform.run m = allOrNothing m (jumpi.effect m) := by
  obtain ⟨code, pc, ⟨words⟩, memory⟩ := m
  rcases words with _ | ⟨destination, _ | ⟨condition, rest⟩⟩
  · rfl
  · rfl
  · have hroom : Stack.depth ⟨rest⟩ ≤ Stack.capacity := Nat.le_of_succ_le (Nat.le_of_succ_le h)
    have hdrop : 2 ≤ Stack.depth ⟨destination :: condition :: rest⟩ := Nat.le_add_left 2 _
    rw [effect_of_operands jumpi [destination, condition] rest rfl rfl]
    simp only [perform, outcome, Outcome.ofJump]
    by_cases hzero : condition = 0#256
    · subst hzero
      simp [Stack.top_two, run_drop, hdrop, Outcome.place_nil, hroom]
    · cases htarget : Machine.jumpTarget
          ⟨code, pc, ⟨destination :: condition :: rest⟩, memory⟩ destination with
      | error fault => simp [Stack.top_two, hzero, htarget]
      | ok target =>
          simp [Stack.top_two, hzero, htarget, run_drop, hdrop, Outcome.place_nil, hroom]

theorem run_push_next (m : Machine) (w : Word) :
    (do Action.push w; return Flow.next : Action Flow).run m =
      allOrNothing m (Outcome.place ⟨[w], m.memory, .next⟩ m m.stack.words) := by
  by_cases hroom : m.stack.depth < Stack.capacity
  · simp [run_push, Outcome.place_singleton, hroom]
  · simp [Action.push, Stack.push, Outcome.place_singleton_of_full, hroom]

theorem perform_push (width : Nat) (m : Machine) :
    (push width).perform.run m = allOrNothing m ((push width).effect m) := by
  rw [effect_of_operands (push width) [] m.stack.words rfl rfl]
  cases hvalue : m.immediate width with
  | error fault => simp [perform, outcome, Outcome.ofImmediate, hvalue]
  | ok value =>
      have hpush := run_push_next m value
      simpa [perform, outcome, Outcome.ofImmediate, hvalue] using hpush

theorem perform_pc (m : Machine) : pc.perform.run m = allOrNothing m (pc.effect m) := by
  rw [effect_of_operands pc [] m.stack.words rfl rfl]
  exact run_push_next m (Word.ofSize m.pc)

theorem perform_msize (m : Machine) :
    msize.perform.run m = allOrNothing m (msize.effect m) := by
  rw [effect_of_operands msize [] m.stack.words rfl rfl]
  exact run_push_next m (Word.ofSize m.memory.size)

theorem perform_dup (position : Nat) (m : Machine) :
    (dup position).perform.run m = allOrNothing m ((dup position).effect m) := by
  cases position with
  | zero => rfl
  | succ i =>
      by_cases hlt : i < m.stack.words.length
      · obtain ⟨above, w, below, habove, hwords⟩ := Stack.exists_split hlt
        have hpeek : m.stack.peek (i + 1) = .ok w := by
          simp [Stack.peek, hwords, ← habove]
        have hpush := run_push_next m w
        rw [effect_of_operands (dup (i + 1)) (above ++ [w]) below (by simp [hwords])
          (by simp [inputs, habove])]
        have hplace : Outcome.place ⟨w :: (above ++ [w]), m.memory, .next⟩ m below =
            Outcome.place ⟨[w], m.memory, .next⟩ m m.stack.words := by
          simp [Outcome.place, hwords]
        simpa [perform, Stack.dup, hpeek, Action.push, outcome, hplace] using hpush
      · have hpeek : m.stack.peek (i + 1) = .error .stackUnderflow := by
          simp [Stack.peek, List.getElem?_eq_none (Nat.le_of_not_lt hlt)]
        have hinputs : m.stack.depth < (dup (i + 1)).inputs :=
          Nat.lt_succ_of_le (Nat.le_of_not_lt hlt)
        simp [perform, Stack.dup, hpeek, effect_of_lt hinputs]

theorem perform_swap (distance : Nat) {m : Machine} (h : m.stack.depth ≤ Stack.capacity) :
    (swap distance).perform.run m = allOrNothing m ((swap distance).effect m) := by
  obtain ⟨code, pc, ⟨words⟩, memory⟩ := m
  cases distance with
  | zero => rcases words with _ | ⟨top, rest⟩ <;> rfl
  | succ i =>
      rcases words with _ | ⟨top, rest⟩
      · rfl
      · by_cases hlt : i < rest.length
        · obtain ⟨above, w, below, habove, rfl⟩ := Stack.exists_split hlt
          have hswap : Stack.swap ⟨top :: (above ++ w :: below)⟩ (i + 1) =
              .ok ⟨w :: (above ++ top :: below)⟩ := by
            simp [Stack.swap, ← habove]
          have hfits : above.length + 1 + 1 + below.length ≤ Stack.capacity := by
            simp only [Stack.depth, List.length_cons, List.length_append] at h
            omega
          rw [effect_of_operands (swap (i + 1)) (top :: (above ++ [w])) below (by simp)
            (by simp [inputs, habove])]
          simp [perform, hswap, outcome, Outcome.place, hfits]
        · have hswap : Stack.swap ⟨top :: rest⟩ (i + 1) = .error .stackUnderflow := by
            simp [Stack.swap, List.getElem?_eq_none (Nat.le_of_not_lt hlt)]
          have hinputs : Stack.depth ⟨top :: rest⟩ < (swap (i + 1)).inputs :=
            Nat.succ_lt_succ (Nat.lt_succ_of_le (Nat.le_of_not_lt hlt))
          rw [effect_of_lt hinputs]
          simp [perform, hswap]

/-- Carrying out an operation in place comes to its effect, all of it or, with a
fault, nothing. -/
theorem perform_eq_effect (op : Operation) {m : Machine}
    (h : m.stack.depth ≤ Stack.capacity) :
    op.perform.run m = allOrNothing m (op.effect m) := by
  cases op with
  | stop => exact perform_idle rfl rfl (fun _ ↦ rfl) h
  | unary op => exact perform_unary op h
  | binary op => exact perform_binary op h
  | ternary op => exact perform_ternary op h
  | pop => exact perform_pop h
  | mload => exact perform_mload h
  | mstore => exact perform_store rfl rfl (fun _ _ _ ↦ rfl) h
  | mstore8 => exact perform_store rfl rfl (fun _ _ _ ↦ rfl) h
  | jump => exact perform_jump h
  | jumpi => exact perform_jumpi h
  | pc => exact perform_pc m
  | msize => exact perform_msize m
  | jumpdest => exact perform_idle rfl rfl (fun _ ↦ rfl) h
  | push width => exact perform_push width m
  | dup position => exact perform_dup position m
  | swap distance => exact perform_swap distance h
  | ret => exact perform_payload rfl rfl (fun _ _ _ ↦ rfl) h
  | revert => exact perform_payload rfl rfl (fun _ _ _ ↦ rfl) h

end Operation

end WordMachine
