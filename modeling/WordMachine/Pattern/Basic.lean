/-!
# Patterns

Regular expressions as they are written.  What they match does not concern the
machine; only how they are put together does.
-/

namespace WordMachine

/-- A character that stands for itself.  One that is given in two hexadecimal
digits stands for a byte where text is matched byte by byte. -/
structure PatternChar where
  char : Char
  isByte : Bool
deriving DecidableEq, Repr

/-- What stands between brackets, which may hold further brackets. -/
inductive CharSet where
  | empty
  | character (c : PatternChar)
  | range (low high : PatternChar)
  /-- A class with a name between colons. -/
  | named (negated : Bool)
  /-- Digits, blanks or word characters. -/
  | shorthand (negated : Bool)
  | union (sets : List CharSet)
  | bracket (negated : Bool) (set : CharSet)
  /-- The common part or a difference of two sets. -/
  | combined (left right : CharSet)

/-- The settings that a pattern changes for the rest of a group. -/
structure FlagChange where
  caseless : Option Bool
  unicode : Option Bool
  /-- Whether blanks and comments are passed over. -/
  spaced : Option Bool
deriving DecidableEq, Repr

inductive Pattern where
  | empty
  | character (c : PatternChar)
  | anyCharacter
  | edge
  | wordEdge
  | shorthand (negated : Bool)
  | charClass (set : CharSet)
  | flags (change : FlagChange)
  | group (change : FlagChange) (inner : Pattern)
  | repeated (inner : Pattern)
  | sequence (parts : List Pattern)
  | alternatives (parts : List Pattern)

namespace CharSet

def ofList : List CharSet → CharSet
  | [] => empty
  | [set] => set
  | sets => union sets

mutual

def depth : CharSet → Nat
  | union sets => depthOfList sets + 1
  | bracket _ set => set.depth + 1
  | combined left right => max left.depth right.depth + 1
  | _ => 0

def depthOfList : List CharSet → Nat
  | [] => 0
  | set :: sets => max set.depth (depthOfList sets)

end

end CharSet

namespace FlagChange

def none : FlagChange := ⟨.none, .none, .none⟩

/-- Flags are set up to a minus sign and cleared behind it. -/
def ofMarks (marks : List Char) : FlagChange :=
  let state (mark : Char) : Option Bool :=
    if (marks.takeWhile (· != '-')).contains mark then some true
    else if marks.contains mark then some false
    else .none
  ⟨state 'i', state 'u', state 'x'⟩

end FlagChange

namespace Pattern

def sequenceOf : List Pattern → Pattern
  | [] => empty
  | [part] => part
  | parts => sequence parts

def alternativesOf : List Pattern → Pattern
  | [] => empty
  | [part] => part
  | parts => alternatives parts

/-- There is nothing to be repeated in what takes up no place. -/
def isRepeatable : Pattern → Bool
  | empty => false
  | flags _ => false
  | _ => true

mutual

def depth : Pattern → Nat
  | charClass set => set.depth
  | group _ inner => inner.depth + 1
  | repeated inner => inner.depth + 1
  | sequence parts => depthOfList parts + 1
  | alternatives parts => depthOfList parts + 1
  | _ => 0

def depthOfList : List Pattern → Nat
  | [] => 0
  | part :: parts => max part.depth (depthOfList parts)

end

end Pattern

end WordMachine
