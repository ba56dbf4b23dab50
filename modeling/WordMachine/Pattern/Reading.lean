import WordMachine.Pattern.Basic
import WordMachine.Text.Blank
import WordMachine.Text.Hex
import WordMachine.Text.Letter

/-!
# Reading patterns

Patterns come as values of fields, where no brace can be closed.  So an opening
brace is right in a class or behind a backslash only: what braces are for
elsewhere, counted repetition and names, would need the other one too.
-/

namespace WordMachine

namespace Pattern

/-- What is left to be read, whether blanks and comments are passed over, and
the names of the groups so far. -/
structure Cursor where
  rest : List Char
  spaced : Bool
  names : List (List Char)
deriving DecidableEq, Repr

/-- Passes over blanks, and comments up to the end of their line. -/
def skipFrom (inComment : Bool) : List Char → List Char
  | [] => []
  | c :: cs =>
    if inComment then skipFrom (c != '\n') cs
    else if Text.isBlank c then skipFrom false cs
    else if c = '#' then skipFrom true cs
    else c :: cs

def skip (spaced : Bool) (cs : List Char) : List Char :=
  if spaced then skipFrom false cs else cs

/-! ## Escapes -/

/-- A number of `count` digits appended to `n`. -/
def hexFrom (spaced : Bool) : Nat → Nat → List Char → Option (Nat × List Char)
  | 0, n, cs => some (n, cs)
  | count + 1, n, cs =>
    match skip spaced cs with
    | [] => none
    | c :: cs => do
      let digit ← Hex.digitValue? c
      hexFrom spaced count (n * 16 + digit) cs

def numbered (spaced : Bool) (count : Nat) (isByte : Bool) (cs : List Char) :
    Option (Pattern × List Char) := do
  let (n, cs) ← hexFrom spaced count 0 cs
  if n.isValidChar then return (character ⟨Char.ofNat n, isByte⟩, cs) else none

/-- Signs can be escaped; letters and digits are kept for special meanings, and
so are the angles. -/
def isEscapable (c : Char) : Bool :=
  c.toNat < 0x80 && !c.isAlphanum && c != '<' && c != '>'

/-- What follows a backslash.  No tables of letters are at hand, so classes by
property cannot be had. -/
def escape (spaced : Bool) : List Char → Option (Pattern × List Char)
  | [] => none
  | 'x' :: cs => numbered spaced 2 true cs
  | 'u' :: cs => numbered spaced 4 false cs
  | 'U' :: cs => numbered spaced 8 false cs
  | 'b' :: '\x7b' :: _ => none
  | c :: cs =>
    if ['d', 's', 'w'].contains c then some (shorthand false, cs)
    else if ['D', 'S', 'W'].contains c then some (shorthand true, cs)
    else if ['b', 'B', '<', '>'].contains c then some (wordEdge, cs)
    else if ['A', 'z'].contains c then some (edge, cs)
    else if ['a', 'f', 'n', 'r', 't', 'v'].contains c || isEscapable c then
      some (character ⟨c, false⟩, cs)
    else none

/-! ## Classes -/

def classNames : List String :=
  ["alnum", "alpha", "ascii", "blank", "cntrl", "digit", "graph", "lower", "print", "punct",
    "space", "upper", "word", "xdigit"]

/-- A class with a name, behind the bracket that opens it. -/
def namedClass (cs : List Char) : Option (CharSet × List Char) :=
  match cs with
  | ':' :: cs =>
    let (negated, cs) := match cs with
      | '^' :: cs => (true, cs)
      | cs => (false, cs)
    match cs.dropWhile (· != ':') with
    | ':' :: ']' :: rest =>
      if classNames.contains (String.ofList (cs.takeWhile (· != ':'))) then
        some (.named negated, rest)
      else none
    | _ => none
  | _ => none

/-- Dashes at the head of a class stand for themselves. -/
def leadingDashes (spaced : Bool) : Nat → List CharSet → List Char → List CharSet × List Char
  | 0, sets, cs => (sets, cs)
  | rounds + 1, sets, cs =>
    match cs with
    | '-' :: rest =>
      leadingDashes spaced rounds (.character ⟨'-', false⟩ :: sets) (skip spaced rest)
    | _ => (sets, cs)

/-- The head of a class, behind its bracket: whether it is negated, and the
characters that have no special meaning there. -/
def classHead (spaced : Bool) (cs : List Char) : Bool × List CharSet × List Char :=
  let (negated, cs) := match skip spaced cs with
    | '^' :: cs => (true, skip spaced cs)
    | cs => (false, cs)
  match leadingDashes spaced cs.length [] cs with
  | ([], ']' :: cs) => (negated, [.character ⟨']', false⟩], skip spaced cs)
  | (sets, cs) => (negated, sets, cs)

/-- A character of a class, or a class behind a backslash. -/
def classItem (spaced : Bool) : List Char → Option (CharSet × List Char)
  | [] => none
  | '\\' :: cs => do
    match ← escape spaced cs with
    | (.character c, cs) => return (.character c, cs)
    | (.shorthand negated, cs) => return (.shorthand negated, cs)
    | _ => none
  | c :: cs => some (.character ⟨c, false⟩, cs)

/-- The first character that is no blank and opens no comment. -/
def firstSolid (inComment : Bool) : List Char → Option Char
  | [] => none
  | c :: cs =>
    if Text.isBlank c then firstSolid inComment cs
    else if !inComment && c = '#' then firstSolid true cs
    else some c

/-- The character that decides whether a dash is part of a range. -/
def afterDash (spaced : Bool) (cs : List Char) : Option Char :=
  if spaced then (firstSolid false cs).or cs.head? else cs.head?

/-- An item of a class, or two characters with a dash between them. -/
def classRange (spaced : Bool) (cs : List Char) : Option (CharSet × List Char) := do
  let (first, cs) ← classItem spaced cs
  match skip spaced cs with
  | '-' :: rest =>
    if [some ']', some '-'].contains (afterDash spaced rest) then return (first, '-' :: rest)
    else
      let (last, cs) ← classItem spaced (skip spaced rest)
      match first, last with
      | .character low, .character high =>
        if low.char ≤ high.char then return (.range low high, cs) else none
      | _, _ => none
  | cs => return (first, cs)

def combine (left : Option CharSet) (sets : List CharSet) : CharSet :=
  let right := CharSet.ofList sets.reverse
  match left with
  | some left => .combined left right
  | none => right

/-- A class up to its closing bracket.  The sets of the current union come in
reverse order, and what stands before the last operator is `left`.  Every round
uses up a character. -/
def classFrom (spaced : Bool) :
    Nat → Option CharSet → List CharSet → List Char → Option (CharSet × List Char)
  | 0, _, _, _ => none
  | rounds + 1, left, sets, cs =>
    match skip spaced cs with
    | [] => none
    | ']' :: cs => some (combine left sets, cs)
    | '[' :: cs =>
      match namedClass cs with
      | some (set, cs) => classFrom spaced rounds left (set :: sets) cs
      | none => do
        let (negated, first, cs) := classHead spaced cs
        let (set, cs) ← classFrom spaced rounds none first cs
        classFrom spaced rounds left (.bracket negated set :: sets) cs
    | '&' :: '&' :: cs => classFrom spaced rounds (some (combine left sets)) [] cs
    | '-' :: '-' :: cs => classFrom spaced rounds (some (combine left sets)) [] cs
    | '~' :: '~' :: cs => classFrom spaced rounds (some (combine left sets)) [] cs
    | cs => do
      let (set, cs) ← classRange spaced cs
      classFrom spaced rounds left (set :: sets) cs

def bracketClass (spaced : Bool) (cs : List Char) : Option (Pattern × List Char) := do
  let (negated, first, rest) := classHead spaced cs
  let (set, rest) ← classFrom spaced (cs.length + 1) none first rest
  return (charClass (.bracket negated set), rest)

/-! ## Groups -/

/-- Flags up to the colon or the bracket that ends them; none may be given
twice, and the minus sign may not come last. -/
def marksFrom (marks : List Char) : List Char → Option (List Char × List Char)
  | [] => none
  | c :: cs =>
    if c = ':' ∨ c = ')' then
      if marks.getLast? = some '-' then none else some (marks, c :: cs)
    else if ['i', 'm', 's', 'U', 'u', 'R', 'x', '-'].contains c && !marks.contains c then
      marksFrom (marks ++ [c]) cs
    else none

def isNameStart (c : Char) : Bool := c = '_' || Text.isLetter c

def isNameChar (c : Char) : Bool :=
  ['_', '.', '[', ']'].contains c || Text.isLetter c || Text.isNumeral c

def isName : List Char → Bool
  | [] => false
  | c :: cs => isNameStart c && cs.all isNameChar

/-- A group that begins, or flags that stand alone between brackets. -/
inductive Opening where
  | group (change : FlagChange)
  | flags (change : FlagChange)
deriving DecidableEq, Repr

def namedGroup (cursor : Cursor) (cs : List Char) : Option (Opening × Cursor) :=
  let name := cs.takeWhile (· != '>')
  match cs.dropWhile (· != '>') with
  | _ :: rest =>
    if isName name && !cursor.names.contains name then
      some (.group .none, { cursor with rest, names := name :: cursor.names })
    else none
  | [] => none

/-- What follows the bracket that opens a group. -/
def opening (cursor : Cursor) (cs : List Char) : Option (Opening × Cursor) :=
  match cs with
  | '?' :: 'P' :: '<' :: cs => namedGroup cursor cs
  | '?' :: '<' :: cs => namedGroup cursor cs
  | '?' :: cs => do
    match ← marksFrom [] cs with
    | (marks, ':' :: rest) => return (.group (.ofMarks marks), { cursor with rest })
    | ([], _) => none
    | (marks, cs) => return (.flags (.ofMarks marks), { cursor with rest := cs.drop 1 })
  | rest => some (.group .none, { cursor with rest })

/-- What stands for itself, for any character or for a place. -/
def single (spaced : Bool) : List Char → Option (Pattern × List Char)
  | [] => none
  | '\\' :: cs => escape spaced cs
  | '[' :: cs => bracketClass spaced cs
  | '.' :: cs => some (anyCharacter, cs)
  | '^' :: cs => some (edge, cs)
  | '$' :: cs => some (edge, cs)
  | '\x7b' :: _ => none
  | c :: cs => some (character ⟨c, false⟩, cs)

/-- Alternatives up to the end of the text or of the group.  Those before the
current one and the parts of that one come in reverse order.  Every round uses
up a character. -/
def alternativesFrom : Nat → List Pattern → List Pattern → Cursor → Option (Pattern × Cursor)
  | 0, _, _, _ => none
  | rounds + 1, before, parts, cursor =>
    let current := sequenceOf parts.reverse
    match skip cursor.spaced cursor.rest with
    | [] => some (alternativesOf (current :: before).reverse, { cursor with rest := [] })
    | ')' :: cs =>
      some (alternativesOf (current :: before).reverse, { cursor with rest := ')' :: cs })
    | '|' :: rest => alternativesFrom rounds (current :: before) [] { cursor with rest }
    | '(' :: cs => do
      match ← opening cursor (skip cursor.spaced cs) with
      | (.flags change, after) =>
        alternativesFrom rounds before (flags change :: parts)
          { after with spaced := change.spaced.getD cursor.spaced }
      | (.group change, inside) => do
        let (inner, after) ← alternativesFrom rounds [] []
          { inside with spaced := change.spaced.getD cursor.spaced }
        match after.rest with
        | ')' :: rest =>
          alternativesFrom rounds before (group change inner :: parts)
            ⟨rest, cursor.spaced, after.names⟩
        | _ => none
    | c :: cs =>
      if ['?', '*', '+'].contains c then
        match parts with
        | [] => none
        | part :: parts =>
          if part.isRepeatable then
            let rest := match cs with
              | '?' :: rest => rest
              | rest => rest
            alternativesFrom rounds before (repeated part :: parts) { cursor with rest }
          else none
      else do
        let (part, rest) ← single cursor.spaced (c :: cs)
        alternativesFrom rounds before (part :: parts) { cursor with rest }

/-- Groups, classes and repetitions may lie this deep in each other. -/
def maxDepth : Nat := 250

def parse (cs : List Char) : Option Pattern := do
  let (pattern, after) ← alternativesFrom (cs.length + 1) [] [] ⟨cs, false, []⟩
  if after.rest.isEmpty && pattern.depth ≤ maxDepth then some pattern else none

end Pattern

end WordMachine
