import WordMachine.Fault

/-!
# The operand stack

At most 1024 words, the top first.  An operation that cannot be carried out
gives a fault and no stack, so its caller still holds the old one.
-/

namespace WordMachine

structure Stack where
  words : List Word
deriving DecidableEq, Repr

namespace Stack

def capacity : Nat := 1024

def empty : Stack := ⟨[]⟩

def depth (s : Stack) : Nat := s.words.length

def isEmpty (s : Stack) : Bool := s.words.isEmpty

def push (s : Stack) (w : Word) : Except Fault Stack :=
  if s.depth < capacity then .ok ⟨w :: s.words⟩ else .error .stackOverflow

def pop (s : Stack) : Except Fault (Word × Stack) :=
  match s.words with
  | [] => .error .stackUnderflow
  | w :: rest => .ok (w, ⟨rest⟩)

/-- The first `n` words, from the top down. -/
def top (s : Stack) (n : Nat) : Except Fault (Vector Word n) :=
  let ws := (s.words.take n).toArray
  if h : ws.size = n then .ok ⟨ws, h⟩ else .error .stackUnderflow

def topN (s : Stack) (n : Nat) : Except Fault (List Word) := do
  let ws ← s.top n
  return ws.toList

def dropN (s : Stack) (n : Nat) : Except Fault Stack :=
  if n ≤ s.depth then .ok ⟨s.words.drop n⟩ else .error .stackUnderflow

def popN (s : Stack) (n : Nat) : Except Fault (List Word × Stack) := do
  let top ← s.topN n
  return (top, ⟨s.words.drop n⟩)

/-- The word at a depth counted from 1. -/
def peek (s : Stack) (position : Nat) : Except Fault Word :=
  match position with
  | 0 => .error .stackUnderflow
  | i + 1 =>
    match s.words[i]? with
    | some w => .ok w
    | none => .error .stackUnderflow

/-- Exchanges the top with the word `distance` below it. -/
def swap (s : Stack) (distance : Nat) : Except Fault Stack :=
  match distance, s.words with
  | i + 1, top :: rest =>
    match rest[i]? with
    | some w => .ok ⟨w :: rest.set i top⟩
    | none => .error .stackUnderflow
  | _, _ => .error .stackUnderflow

def dup (s : Stack) (position : Nat) : Except Fault Stack := do
  let w ← s.peek position
  s.push w

/-- Pushes one word after the other, up to the first that does not fit. -/
def pushAll (s : Stack) : List Word → Stack × Option Fault
  | [] => (s, none)
  | w :: ws =>
    match s.push w with
    | .ok s => s.pushAll ws
    | .error fault => (s, some fault)

end Stack

end WordMachine
