import WordMachine.Json.Token

/-!
# Passing over a JSON value

A value that nobody asked for is checked against the grammar and otherwise
ignored.  The brackets that are open are kept in a list, so that values may nest
to any depth.
-/

namespace WordMachine

namespace JsonSkip

inductive Bracket where
  | list | object
deriving DecidableEq, Repr

namespace Bracket

def closing : Bracket → Char
  | list => ']'
  | object => '\x7d'

def place : Bracket → JsonPlace
  | list => .list
  | object => .object

def missingEnd : Bracket → JsonFlaw
  | list => .expectedListEnd
  | object => .expectedObjectEnd

end Bracket

/-- What has just been read. -/
inductive Point where
  /-- Nothing of the value that is due. -/
  | before
  /-- The innermost bracket. -/
  | opened
  /-- A whole value. -/
  | after
deriving DecidableEq, Repr

/-- The key and the colon in front of a value in an object. -/
def key (bound : Nat) (bracket : Bracket) (cs : List Char) : Except JsonProblem (List Char) :=
  match bracket with
  | .list => .ok cs
  | .object =>
    match JsonToken.skipBlanks cs with
    | [] => .error (.ended .object)
    | '"' :: cs => do
      let cs ← JsonToken.skipString bound cs
      match JsonToken.skipBlanks cs with
      | [] => .error (.ended .object)
      | ':' :: cs => .ok cs
      | _ => .error (.malformed .expectedColon)
    | _ => .error (.malformed .keyNotString)

/-- One round reads at least a character, or goes from an opened bracket to its
first value. -/
def skipFrom (bound : Nat) :
    Nat → Point → List Bracket → List Char → Except JsonProblem (List Char)
  | 0, _, _, _ => .error (.ended .value)
  | rounds + 1, .before, brackets, cs =>
    match JsonToken.skipBlanks cs with
    | [] => .error (.ended .value)
    | '[' :: cs => skipFrom bound rounds .opened (.list :: brackets) cs
    | '\x7b' :: cs => skipFrom bound rounds .opened (.object :: brackets) cs
    | '"' :: cs => do skipFrom bound rounds .after brackets (← JsonToken.skipString bound cs)
    | 'n' :: cs => do skipFrom bound rounds .after brackets (← JsonToken.word "ull".toList cs)
    | 't' :: cs => do skipFrom bound rounds .after brackets (← JsonToken.word "rue".toList cs)
    | 'f' :: cs => do skipFrom bound rounds .after brackets (← JsonToken.word "alse".toList cs)
    | '-' :: cs => do skipFrom bound rounds .after brackets (← JsonToken.skipNumber cs)
    | c :: cs =>
      if c.isDigit then do skipFrom bound rounds .after brackets (← JsonToken.skipNumber (c :: cs))
      else .error (.malformed .expectedValue)
  | _ + 1, .opened, [], cs => .ok cs
  | rounds + 1, .opened, bracket :: brackets, cs =>
    match JsonToken.skipBlanks cs with
    | [] => .error (.ended bracket.place)
    | c :: rest =>
      if c = bracket.closing then skipFrom bound rounds .after brackets rest
      else do skipFrom bound rounds .before (bracket :: brackets) (← key bound bracket (c :: rest))
  | _ + 1, .after, [], cs => .ok cs
  | rounds + 1, .after, bracket :: brackets, cs =>
    match JsonToken.skipBlanks cs with
    | [] => .error (.ended bracket.place)
    | c :: rest =>
      if c = ',' then do
        skipFrom bound rounds .before (bracket :: brackets) (← key bound bracket rest)
      else if c = bracket.closing then skipFrom bound rounds .after brackets rest
      else .error (.malformed bracket.missingEnd)

def value (bound : Nat) (cs : List Char) : Except JsonProblem (List Char) :=
  skipFrom bound (2 * bound) .before [] cs

end JsonSkip

end WordMachine
