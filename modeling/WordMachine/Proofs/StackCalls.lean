import Mathlib.Logic.Equiv.Basic
import WordMachine.Proofs.StrictStep

/-!
# Calls to the stack

Whatever is asked of a stack, in whatever order, it answers as a list of at most
1024 words does whose first element is the top.  The list speaks of places alone: it
refuses a call by its length, and an exchange permutes places.  The calls are served
three times more: by the functions on stacks, in place on a machine, where a call
might fail halfway, and on the block in which the words lie with the top last, where
every place has to be computed.
-/

namespace WordMachine

/-- One request to a stack.  The top is at position 1, and at distance 0. -/
inductive StackCall where
  | push (w : Word)
  | pop
  | popN (count : Nat)
  | topN (count : Nat)
  | dropN (count : Nat)
  | peek (position : Nat)
  | swap (distance : Nat)
  | dup (position : Nat)
deriving DecidableEq, Repr

/-- The state after calls that are made one after the other, whether they are granted
or not. -/
def afterCalls {σ : Type} (answer : σ → StackCall → Except Fault (List Word) × σ) (s : σ)
    (calls : List StackCall) : σ :=
  calls.foldl (fun s call ↦ (answer s call).2) s

theorem afterCalls_cons {σ : Type} (answer : σ → StackCall → Except Fault (List Word) × σ) (s : σ)
    (call : StackCall) (calls : List StackCall) :
    afterCalls answer s (call :: calls) = afterCalls answer (answer s call).2 calls := rfl

/-! ## The list -/

namespace StackCall

/-- The list is full with as many words. -/
def bound : Nat := 1024

/-- The words with the first one and the one at `distance` in each other's place. -/
def exchange (distance : Nat) (words : List Word) : List Word :=
  words.mapIdx fun i w ↦ words.getD (Equiv.swap 0 distance i) w

def fault? (words : List Word) : StackCall → Option Fault
  | push _ => if words.length = bound then some .stackOverflow else none
  | pop => if words.length < 1 then some .stackUnderflow else none
  | popN count | topN count | dropN count =>
    if words.length < count then some .stackUnderflow else none
  | peek position =>
    if position = 0 ∨ words.length < position then some .stackUnderflow else none
  | swap distance =>
    if distance = 0 ∨ words.length ≤ distance then some .stackUnderflow else none
  | dup position =>
    if position = 0 ∨ words.length < position then some .stackUnderflow
    else if words.length = bound then some .stackOverflow
    else none

/-- The words that a call hands out. -/
def reply (words : List Word) : StackCall → List Word
  | pop => words.take 1
  | popN count | topN count => words.take count
  | peek position => words[position - 1]?.toList
  | push _ | dropN _ | swap _ | dup _ => []

def after (words : List Word) : StackCall → List Word
  | push w => w :: words
  | pop => words.drop 1
  | popN count | dropN count => words.drop count
  | swap distance => exchange distance words
  | dup position => words[position - 1]?.toList ++ words
  | topN _ | peek _ => words

def answer (words : List Word) (call : StackCall) : Except Fault (List Word) × List Word :=
  match call.fault? words with
  | some fault => (.error fault, words)
  | none => (.ok (call.reply words), call.after words)

section

variable {words : List Word} {distance : Nat}

theorem swap_lt_length (h : distance < words.length) {i : Nat} (hi : i < words.length) :
    Equiv.swap 0 distance i < words.length := by
  rw [Equiv.swap_apply_def]
  split
  · exact h
  · split
    · exact Nat.zero_lt_of_lt h
    · exact hi

theorem getElem?_exchange (h : distance < words.length) (i : Nat) :
    (exchange distance words)[i]? = words[Equiv.swap 0 distance i]? := by
  rw [exchange, List.getElem?_mapIdx]
  by_cases hi : i < words.length
  · have hplace := swap_lt_length h hi
    rw [List.getElem?_eq_getElem hi, List.getElem?_eq_getElem hplace, Option.map_some,
      List.getD_eq_getElem?_getD, List.getElem?_eq_getElem hplace, Option.getD_some]
  · -- A place behind the end is exchanged with no other.
    have hfixed : Equiv.swap 0 distance i = i := Equiv.swap_apply_of_ne_of_ne (by omega) (by omega)
    rw [hfixed, List.getElem?_eq_none (Nat.le_of_not_lt hi), Option.map_none]

theorem length_exchange (distance : Nat) (words : List Word) :
    (exchange distance words).length = words.length := List.length_mapIdx

theorem exchange_exchange (h : distance < words.length) :
    exchange distance (exchange distance words) = words := by
  apply List.ext_getElem?
  intro i
  rw [getElem?_exchange (by rwa [length_exchange]), getElem?_exchange h, Equiv.swap_apply_self]

theorem length_after_le {call : StackCall} (h : words.length ≤ bound)
    (hgranted : call.fault? words = none) : (call.after words).length ≤ bound := by
  cases call with
  | push w =>
      have hroom : words.length ≠ bound := by simpa [fault?] using hgranted
      rw [after, List.length_cons]
      omega
  | pop =>
      rw [after, List.length_drop]
      omega
  | popN count | dropN count =>
      rw [after, List.length_drop]
      omega
  | topN count => exact h
  | peek position => exact h
  | swap distance =>
      rw [after, length_exchange]
      exact h
  | dup position =>
      have hroom : words.length ≠ bound := by
        intro hfull
        rw [fault?, if_pos hfull] at hgranted
        split at hgranted <;> cases hgranted
      have hone : words[position - 1]?.toList.length ≤ 1 := by
        cases words[position - 1]? <;> simp
      rw [after, List.length_append]
      omega

/-- Two exchanges in a row come to nothing, also where there is nothing to exchange. -/
theorem answer_swap_swap (words : List Word) (distance : Nat) :
    answer (answer words (swap distance)).2 (swap distance) =
      ((answer words (swap distance)).1, words) := by
  by_cases hrefused : distance = 0 ∨ words.length ≤ distance
  · have hfault : fault? words (swap distance) = some .stackUnderflow := if_pos hrefused
    simp only [answer, hfault]
  · have hfault : fault? words (swap distance) = none := if_neg hrefused
    have hagain : fault? (exchange distance words) (swap distance) = none := by
      rw [fault?, length_exchange]
      exact if_neg hrefused
    have hinside : distance < words.length := by omega
    simp only [answer, hfault, after, hagain, reply, exchange_exchange hinside]

end

end StackCall

/-! ## The functions on stacks -/

namespace Stack

def call (s : Stack) : StackCall → Except Fault (List Word × Stack)
  | .push w => do return ([], ← s.push w)
  | .pop => do
    let (w, rest) ← s.pop
    return ([w], rest)
  | .popN count => s.popN count
  | .topN count => do return (← s.topN count, s)
  | .dropN count => do return ([], ← s.dropN count)
  | .peek position => do return ([← s.peek position], s)
  | .swap distance => do return ([], ← s.swap distance)
  | .dup position => do return ([], ← s.dup position)

/-- What a call gives, and the stack that its caller goes on with. -/
def answer (s : Stack) (call : StackCall) : Except Fault (List Word) × Stack :=
  match s.call call with
  | .ok (words, rest) => (.ok words, rest)
  | .error fault => (.error fault, s)

variable (s : Stack)

theorem topN_eq (count : Nat) :
    s.topN count =
      if s.words.length < count then .error .stackUnderflow else .ok (s.words.take count) := by
  have hsize : (s.words.take count).toArray.size = min count s.words.length := by
    rw [List.size_toArray, List.length_take]
  by_cases hshort : s.words.length < count
  · rw [topN, top, dif_neg (by omega), if_pos hshort]
    rfl
  · rw [topN, top, dif_pos (by omega), if_neg hshort]
    simp

theorem popN_eq (count : Nat) :
    s.popN count =
      if s.words.length < count then .error .stackUnderflow
      else .ok (s.words.take count, ⟨s.words.drop count⟩) := by
  rw [popN, topN_eq]
  split <;> rfl

theorem dropN_eq (count : Nat) :
    s.dropN count =
      if s.words.length < count then .error .stackUnderflow else .ok ⟨s.words.drop count⟩ := by
  rw [dropN, depth]
  by_cases hshort : s.words.length < count
  · rw [if_neg (Nat.not_le_of_lt hshort), if_pos hshort]
  · rw [if_pos (Nat.le_of_not_lt hshort), if_neg hshort]

theorem peek_of_refused {position : Nat} (h : position = 0 ∨ s.words.length < position) :
    s.peek position = .error .stackUnderflow := by
  cases position with
  | zero => rfl
  | succ i =>
      have hnone : s.words[i]? = none := List.getElem?_eq_none (by omega)
      rw [peek, hnone]

theorem peek_of_granted {position : Nat} (h : ¬(position = 0 ∨ s.words.length < position)) :
    ∃ w, s.words[position - 1]? = some w ∧ s.peek position = .ok w := by
  cases position with
  | zero => exact absurd (.inl rfl) h
  | succ i =>
      have hinside : i < s.words.length := by omega
      have hsome : s.words[i]? = some s.words[i] := List.getElem?_eq_getElem hinside
      refine ⟨s.words[i], hsome, ?_⟩
      rw [peek, hsome]

theorem push_eq (h : s.words.length ≤ StackCall.bound) (w : Word) :
    s.push w =
      if s.words.length = StackCall.bound then .error .stackOverflow else .ok ⟨w :: s.words⟩ := by
  by_cases hfull : s.words.length = StackCall.bound
  · have hroom : ¬s.depth < capacity := by
      rw [depth, hfull]
      exact Nat.lt_irrefl StackCall.bound
    rw [push, if_neg hroom, if_pos hfull]
  · have hroom : s.depth < capacity := Nat.lt_of_le_of_ne h hfull
    rw [push, if_pos hroom, if_neg hfull]

/-- The first word and another one are put in each other's place. -/
theorem cons_set_eq_exchange (first w : Word) {rest : List Word} {i : Nat}
    (h : rest[i]? = some w) :
    w :: rest.set i first = StackCall.exchange (i + 1) (first :: rest) := by
  obtain ⟨hi, rfl⟩ := List.getElem?_eq_some_iff.mp h
  apply List.ext_getElem?
  intro j
  rw [StackCall.getElem?_exchange (Nat.succ_lt_succ hi)]
  rcases j with _ | j
  · rw [Equiv.swap_apply_left, List.getElem?_cons_zero, List.getElem?_cons_succ, h]
  · by_cases hj : j = i
    · subst hj
      rw [Equiv.swap_apply_right, List.getElem?_cons_zero, List.getElem?_cons_succ,
        List.getElem?_set_self hi]
    · have hfixed : Equiv.swap 0 (i + 1) (j + 1) = j + 1 :=
        Equiv.swap_apply_of_ne_of_ne (by omega) (by omega)
      rw [hfixed, List.getElem?_cons_succ, List.getElem?_cons_succ,
        List.getElem?_set_ne (Ne.symm hj)]

theorem swap_eq (distance : Nat) :
    s.swap distance =
      if distance = 0 ∨ s.words.length ≤ distance then .error .stackUnderflow
      else .ok ⟨StackCall.exchange distance s.words⟩ := by
  obtain ⟨words⟩ := s
  cases distance with
  | zero => cases words <;> rfl
  | succ i =>
      rcases words with _ | ⟨first, rest⟩
      · rfl
      · by_cases hshort : (first :: rest).length ≤ i + 1
        · have hnone : rest[i]? = none := List.getElem?_eq_none (Nat.le_of_succ_le_succ hshort)
          rw [if_pos (.inr hshort)]
          simp only [swap, hnone]
        · have hinside : i < rest.length := Nat.lt_of_not_le fun h ↦ hshort (Nat.succ_le_succ h)
          have hsome : rest[i]? = some rest[i] := List.getElem?_eq_getElem hinside
          have hgranted : ¬(i + 1 = 0 ∨ (first :: rest).length ≤ i + 1) := by omega
          rw [if_neg hgranted, ← cons_set_eq_exchange first _ hsome]
          simp only [swap, hsome]

/-- One call, as the list answers it. -/
theorem call_eq (h : s.words.length ≤ StackCall.bound) (c : StackCall) :
    s.call c =
      match c.fault? s.words with
      | some fault => .error fault
      | none => .ok (c.reply s.words, ⟨c.after s.words⟩) := by
  cases c with
  | push w =>
      rw [call, push_eq s h, StackCall.fault?]
      split <;> rfl
  | pop =>
      obtain ⟨words⟩ := s
      cases words <;> rfl
  | popN count =>
      rw [call, popN_eq, StackCall.fault?]
      split <;> rfl
  | topN count =>
      rw [call, topN_eq, StackCall.fault?]
      split <;> rfl
  | dropN count =>
      rw [call, dropN_eq, StackCall.fault?]
      split <;> rfl
  | swap distance =>
      rw [call, swap_eq, StackCall.fault?]
      split <;> rfl
  | peek position =>
      by_cases hrefused : position = 0 ∨ s.words.length < position
      · rw [call, peek_of_refused s hrefused, StackCall.fault?, if_pos hrefused]
        rfl
      · obtain ⟨w, hw, hpeek⟩ := peek_of_granted s hrefused
        rw [call, hpeek, StackCall.fault?, if_neg hrefused]
        simp only [StackCall.reply, StackCall.after, hw]
        rfl
  | dup position =>
      by_cases hrefused : position = 0 ∨ s.words.length < position
      · rw [call, dup, peek_of_refused s hrefused, StackCall.fault?, if_pos hrefused]
        rfl
      · obtain ⟨w, hw, hpeek⟩ := peek_of_granted s hrefused
        rw [call, dup, hpeek, Fault.ok_bind, push_eq s h, StackCall.fault?, if_neg hrefused]
        simp only [StackCall.reply, StackCall.after, hw]
        split <;> rfl

theorem answer_eq (h : s.words.length ≤ StackCall.bound) (c : StackCall) :
    s.answer c =
      ((StackCall.answer s.words c).1, ⟨(StackCall.answer s.words c).2⟩) := by
  rw [answer, call_eq s h, StackCall.answer]
  cases c.fault? s.words with
  | none => rfl
  | some fault => rfl

theorem length_answer_le (h : s.words.length ≤ StackCall.bound) (c : StackCall) :
    (s.answer c).2.words.length ≤ StackCall.bound := by
  rw [answer_eq s h, StackCall.answer]
  cases hfault : c.fault? s.words with
  | none => exact StackCall.length_after_le h hfault
  | some fault => exact h

theorem answer_of_error {s : Stack} {c : StackCall} {fault : Fault}
    (h : (s.answer c).1 = .error fault) : (s.answer c).2 = s := by
  unfold answer at h ⊢
  split at h
  · cases h
  · rfl

theorem answer_swap_swap (h : s.words.length ≤ StackCall.bound) (distance : Nat) :
    (s.answer (.swap distance)).2.answer (.swap distance) =
      ((s.answer (.swap distance)).1, s) := by
  have hlength := length_answer_le s h (.swap distance)
  rw [answer_eq _ hlength, answer_eq s h, StackCall.answer_swap_swap]

/-- The stack keeps to the list, and to its bound. -/
theorem afterCalls_eq {s : Stack} (h : s.words.length ≤ StackCall.bound) (calls : List StackCall) :
    (afterCalls answer s calls).words = afterCalls StackCall.answer s.words calls ∧
      (afterCalls answer s calls).words.length ≤ StackCall.bound := by
  induction calls generalizing s with
  | nil => exact ⟨rfl, h⟩
  | cons c calls ih =>
      obtain ⟨hwords, hlength⟩ := ih (length_answer_le s h c)
      rw [afterCalls_cons, afterCalls_cons]
      refine ⟨?_, hlength⟩
      rw [hwords, answer_eq s h]

end Stack

/-! ## Calls in place -/

namespace StackCall

/-- Carries the call out in place. -/
def perform (call : StackCall) : Action (List Word) :=
  match call with
  | push w => do
    Action.push w
    return []
  | pop => do
    let (w, rest) ← (← get).stack.pop
    modify fun m ↦ { m with stack := rest }
    return [w]
  | popN count => return (← Action.take count).toList
  | topN count => return (← Action.top count).toList
  | dropN count => do
    Action.drop count
    return []
  | peek position => return [← (← get).stack.peek position]
  | swap distance => do
    Action.restack (·.swap distance)
    return []
  | dup position => do
    Action.restack (·.dup position)
    return []

end StackCall

namespace Machine

/-- What a call gives, and the machine as the call has left it. -/
def answer (m : Machine) (call : StackCall) : Except Fault (List Word) × Machine :=
  Strict.report (call.perform.run m)

/-- In place, a call that fails has changed nothing, and one that is granted nothing
but the stack. -/
theorem answer_eq (m : Machine) (call : StackCall) :
    m.answer call = ((m.stack.answer call).1, { m with stack := (m.stack.answer call).2 }) := by
  rw [answer, Stack.answer]
  cases call with
  | push w =>
      cases h : m.stack.push w <;>
        simp [StackCall.perform, Stack.call, Action.push, Strict.report, h]
  | pop =>
      cases h : m.stack.pop <;> simp [StackCall.perform, Stack.call, Strict.report, h]
  | popN count =>
      cases h : m.stack.top count <;>
        simp [StackCall.perform, Stack.call, Stack.popN, Stack.topN, Strict.report, h]
  | topN count =>
      cases h : m.stack.top count <;>
        simp [StackCall.perform, Stack.call, Stack.topN, Strict.report, h]
  | dropN count =>
      cases h : m.stack.dropN count <;>
        simp [StackCall.perform, Stack.call, Action.drop, Strict.report, h]
  | peek position =>
      cases h : m.stack.peek position <;>
        simp [StackCall.perform, Stack.call, Strict.report, h]
  | swap distance =>
      cases h : m.stack.swap distance <;>
        simp [StackCall.perform, Stack.call, Strict.report, h]
  | dup position =>
      cases h : m.stack.dup position <;>
        simp [StackCall.perform, Stack.call, Strict.report, h]

theorem afterCalls_eq (m : Machine) (calls : List StackCall) :
    afterCalls answer m calls = { m with stack := afterCalls Stack.answer m.stack calls } := by
  induction calls generalizing m with
  | nil => rfl
  | cons call calls ih =>
      rw [afterCalls_cons, ih, answer_eq]
      rfl

end Machine

/-! ## Calls on the block -/

namespace Strict

/-- Carries the call out on the block in which the words lie, the top last. -/
def performCall (call : StackCall) : Action (List Word) :=
  match call with
  | .push w => do
    Action.push w
    return []
  | .pop => do
    let (w, rest) ← popLast (← get).stack
    modify fun m ↦ { m with stack := rest }
    return [w]
  | .popN count => return (← Action.take count).toList
  | .topN count => return (← Action.top count).toList
  | .dropN count => do
    Action.drop count
    return []
  | .peek position => do
    let found ← peek (← get).stack position
    return [← found]
  | .swap distance => do
    Action.restack (swap · distance)
    return []
  | .dup position => do
    Action.restack (dup · position)
    return []

theorem agrees_performCall (call : StackCall) (m : Machine) :
    Agrees (performCall call) call.perform m := by
  cases call with
  | push w => exact (Action.agrees_push w).bind fun _ _ _ ↦ agrees_pure _
  | pop =>
      refine agrees_get.bind fun looked _ _ ↦ ?_
      rw [popLast_eq]
      refine (agrees_settle _).bind fun found _ _ ↦ ?_
      exact (agrees_modify rfl).bind fun _ _ _ ↦ agrees_pure _
  | popN count => exact (Action.agrees_take count).bind fun _ _ _ ↦ agrees_pure _
  | topN count => exact (Action.agrees_top count).bind fun _ _ _ ↦ agrees_pure _
  | dropN count => exact (Action.agrees_drop count).bind fun _ _ _ ↦ agrees_pure _
  | peek position =>
      refine agrees_get.bind fun looked _ _ ↦ .compute (peek_eq _ position) ?_
      exact (agrees_settle _).bind fun _ _ _ ↦ agrees_pure _
  | swap distance =>
      exact (Action.agrees_restack (swap_eq · distance)).bind fun _ _ _ ↦ agrees_pure _
  | dup position =>
      exact (Action.agrees_restack (dup_eq · position)).bind fun _ _ _ ↦ agrees_pure _

end Strict

namespace Stack

/-- Whatever calls have been made of an empty stack, its words are those of the list that
has served the same calls, and it answers any further call as the list does.  Two
exchanges in a row come to nothing.  In place, the calls change nothing but the stack,
and a call that fails not even that; on the block no place is looked for in vain. -/
theorem answers_as_list (m : Machine) (hempty : m.stack = empty) (calls : List StackCall) :
    let words := afterCalls StackCall.answer [] calls
    let s := afterCalls answer empty calls
    s.words = words ∧ words.length ≤ 1024 ∧
      (∀ call, s.answer call =
        ((StackCall.answer words call).1, ⟨(StackCall.answer words call).2⟩)) ∧
      (∀ distance, (s.answer (.swap distance)).2.answer (.swap distance) =
        ((s.answer (.swap distance)).1, s)) ∧
      afterCalls Machine.answer m calls = { m with stack := s } ∧
      ∀ call,
        Machine.answer { m with stack := s } call =
            ((s.answer call).1, { m with stack := (s.answer call).2 }) ∧
          (∀ fault, (s.answer call).1 = .error fault →
            Machine.answer { m with stack := s } call = (.error fault, { m with stack := s })) ∧
          (Strict.performCall call).run.run { m with stack := s } =
            some (Machine.answer { m with stack := s } call) := by
  intro words s
  obtain ⟨hwords, hlength⟩ := afterCalls_eq (s := empty) (Nat.zero_le _) calls
  change s.words = words at hwords
  refine ⟨hwords, hwords ▸ hlength, ?_, ?_, ?_, ?_⟩
  · intro call
    rw [answer_eq s hlength, hwords]
  · exact answer_swap_swap s hlength
  · rw [Machine.afterCalls_eq, hempty]
  · intro call
    refine ⟨Machine.answer_eq _ call, ?_, Strict.agrees_performCall call _⟩
    intro fault herror
    rw [Machine.answer_eq, herror, answer_of_error herror]

/-- Three words of which two are exchanged and one is copied, among calls that ask for
more than there is. -/
def sampleCalls : List StackCall :=
  [.push 1#256, .push 2#256, .push 3#256, .swap 2, .popN 4, .dup 3, .peek 0, .swap 4]

theorem answers_as_list_sampleCalls :
    let m := Machine.start #[] 0
    let s : Stack := ⟨[3#256, 1#256, 2#256, 3#256]⟩
    m.stack = empty ∧ afterCalls Machine.answer m sampleCalls = { m with stack := s } ∧
      (s.answer (.popN 2)).1 = .ok [3#256, 1#256] ∧
      Machine.answer { m with stack := s } (.dropN 5) =
        (.error .stackUnderflow, { m with stack := s }) := by
  intro m s
  obtain ⟨hwords, -, hanswer, -, hplace, hcalls⟩ := answers_as_list m rfl sampleCalls
  have hlist : afterCalls StackCall.answer [] sampleCalls = s.words := by decide
  have hs : afterCalls answer empty sampleCalls = s := congrArg Stack.mk (hwords.trans hlist)
  rw [hs] at hanswer hplace hcalls
  refine ⟨rfl, hplace, ?_, ?_⟩
  · rw [hanswer]
    rfl
  · apply (hcalls (.dropN 5)).2.1
    rw [hanswer]
    rfl

end Stack

end WordMachine
