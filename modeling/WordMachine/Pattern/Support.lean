import WordMachine.Pattern.Reading

/-!
# Patterns that can be matched

Text is matched character by character or, where a pattern clears the flag for
that, byte by byte.  The first way lacks tables of letters, so it knows no
shorthands and no caseless characters; the second may not match a part of a
character, so it knows nothing but ASCII.  Where a word ends cannot be told
without the tables either, and that is a problem of its own.
-/

namespace WordMachine

namespace Pattern

inductive Problem where
  | notAPattern
  | needsWordTable
deriving DecidableEq, Repr

namespace Problem

def message : Problem → String
  | notAPattern => "error building NFA"
  | needsWordTable => "unsupported regex feature for DFAs"

end Problem

structure Mode where
  caseless : Bool
  unicode : Bool
deriving DecidableEq, Repr

namespace Mode

def initial : Mode := ⟨false, true⟩

def change (mode : Mode) (flags : FlagChange) : Mode :=
  ⟨flags.caseless.getD mode.caseless, flags.unicode.getD mode.unicode⟩

end Mode

def isAscii (c : PatternChar) : Bool := c.char.toNat < 0x80

def supportsCharacter (mode : Mode) (c : PatternChar) : Bool :=
  if mode.unicode then !mode.caseless else isAscii c || (!c.isByte && !mode.caseless)

def supportsShorthand (mode : Mode) (negated : Bool) : Bool := !mode.unicode && !negated

mutual

def supportsSet (mode : Mode) : CharSet → Bool
  | .empty => true
  | .character c => if mode.unicode then !mode.caseless else isAscii c
  | .range low high => if mode.unicode then !mode.caseless else isAscii low && isAscii high
  | .named negated => if mode.unicode then !mode.caseless else !negated
  | .shorthand negated => supportsShorthand mode negated
  | .union sets => supportsSets mode sets
  | .bracket negated set => (mode.unicode || !negated) && supportsSet mode set
  | .combined left right => supportsSet mode left && supportsSet mode right

def supportsSets (mode : Mode) : List CharSet → Bool
  | [] => true
  | set :: sets => supportsSet mode set && supportsSets mode sets

end

/-- What a look at a pattern finds out: how what follows it is matched, and
whether it asks for the ends of words. -/
structure Survey where
  mode : Mode
  wordEdges : Bool
deriving DecidableEq, Repr

mutual

/-- Nothing if a part cannot be matched.  The flags that a part changes hold for
the parts behind it, up to the end of the group. -/
def survey (mode : Mode) : Pattern → Option Survey
  | empty => some ⟨mode, false⟩
  | edge => some ⟨mode, false⟩
  | wordEdge => some ⟨mode, mode.unicode⟩
  | anyCharacter => if mode.unicode then some ⟨mode, false⟩ else none
  | character c => if supportsCharacter mode c then some ⟨mode, false⟩ else none
  | shorthand negated => if supportsShorthand mode negated then some ⟨mode, false⟩ else none
  | charClass set => if supportsSet mode set then some ⟨mode, false⟩ else none
  | flags change => some ⟨mode.change change, false⟩
  | group change inner => (survey (mode.change change) inner).map fun found ↦ { found with mode }
  | repeated inner => survey mode inner
  | sequence parts => surveyAll mode parts
  | alternatives parts => surveyAll mode parts

def surveyAll (mode : Mode) : List Pattern → Option Survey
  | [] => some ⟨mode, false⟩
  | part :: parts => do
    let first ← survey mode part
    let others ← surveyAll first.mode parts
    return { others with wordEdges := first.wordEdges || others.wordEdges }

end

/-- The problem of a text that is to be a pattern. -/
def problem? (cs : List Char) : Option Problem :=
  match (parse cs).bind (survey .initial) with
  | none => some .notAPattern
  | some found => if found.wordEdges then some .needsWordTable else none

end Pattern

end WordMachine
