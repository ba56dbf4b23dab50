import WordMachine.Json.Problem
import WordMachine.Text.Hex

/-!
# The tokens of JSON

Words, numbers and strings at the head of a text.  A function that reads a
token gives the characters after it.  Where a number of rounds bounds a loop,
every round uses up a character, so that a bound above the length of the text is
never reached.
-/

namespace WordMachine

namespace JsonToken

def isBlank (c : Char) : Bool := c = ' ' ∨ c = '\n' ∨ c = '\t' ∨ c = '\r'

def skipBlanks (cs : List Char) : List Char := cs.dropWhile isBlank

/-- The rest of a word such as `null` after its first character. -/
def word : List Char → List Char → Except JsonProblem (List Char)
  | [], cs => .ok cs
  | _ :: _, [] => .error (.ended .value)
  | w :: ws, c :: cs => if c = w then word ws cs else .error (.malformed .expectedIdent)

/-! ## Strings -/

/-- The four digits of an escape.  When fewer than four bytes are left the text
has ended inside it. -/
def fourDigits (cs : List Char) : Except JsonProblem (Nat × List Char) :=
  match (cs.take 4).mapM Hex.digitValue? with
  | some [a, b, c, d] => .ok (((a * 16 + b) * 16 + c) * 16 + d, cs.drop 4)
  | _ =>
    if (cs.take 4).foldr (fun c size ↦ c.utf8Size + size) 0 < 4 then .error (.ended .string)
    else .error (.malformed .invalidEscape)

/-- The character of an escape `\u`, which beyond the first plane takes a pair. -/
def unicodeEscape (cs : List Char) : Except JsonProblem (Char × List Char) := do
  let (n, cs) ← fourDigits cs
  if 0xDC00 ≤ n ∧ n ≤ 0xDFFF then .error (.malformed .loneSurrogate)
  else if n < 0xD800 ∨ 0xDBFF < n then return (Char.ofNat n, cs)
  else
    match cs with
    | [] | ['\\'] => .error (.ended .string)
    | '\\' :: 'u' :: cs =>
      let (m, cs) ← fourDigits cs
      if m < 0xDC00 ∨ 0xDFFF < m then .error (.malformed .loneSurrogate)
      else return (Char.ofNat (0x10000 + (n - 0xD800) * 0x400 + (m - 0xDC00)), cs)
    | _ => .error (.malformed .unfinishedSurrogate)

/-- The character of an escape after its backslash. -/
def escaped : List Char → Except JsonProblem (Char × List Char)
  | [] => .error (.ended .string)
  | '"' :: cs => .ok ('"', cs)
  | '\\' :: cs => .ok ('\\', cs)
  | '/' :: cs => .ok ('/', cs)
  | 'b' :: cs => .ok ('\x08', cs)
  | 'f' :: cs => .ok ('\x0c', cs)
  | 'n' :: cs => .ok ('\n', cs)
  | 'r' :: cs => .ok ('\r', cs)
  | 't' :: cs => .ok ('\t', cs)
  | 'u' :: cs => unicodeEscape cs
  | _ => .error (.malformed .invalidEscape)

/-- The string after its opening quote; `read` holds its characters so far, the
last one first. -/
def stringFrom : Nat → List Char → List Char → Except JsonProblem (String × List Char)
  | 0, _, _ => .error (.ended .string)
  | rounds + 1, read, cs =>
    match cs with
    | [] => .error (.ended .string)
    | '"' :: cs => .ok (String.ofList read.reverse, cs)
    | '\\' :: cs => do
      let (c, cs) ← escaped cs
      stringFrom rounds (c :: read) cs
    | c :: cs =>
      if c.toNat < 0x20 then .error (.malformed .controlCharacter)
      else stringFrom rounds (c :: read) cs

def string (bound : Nat) (cs : List Char) : Except JsonProblem (String × List Char) :=
  stringFrom bound [] cs

/-- An escape whose character is of no interest; surrogates need no partner. -/
def skipEscaped : List Char → Except JsonProblem (List Char)
  | [] => .error (.ended .string)
  | 'u' :: cs => do
    let (_, cs) ← fourDigits cs
    return cs
  | c :: cs =>
    if "\"\\/bfnrt".toList.contains c then .ok cs else .error (.malformed .invalidEscape)

def skipStringFrom : Nat → List Char → Except JsonProblem (List Char)
  | 0, _ => .error (.ended .string)
  | rounds + 1, cs =>
    match cs with
    | [] => .error (.ended .string)
    | '"' :: cs => .ok cs
    | '\\' :: cs => do skipStringFrom rounds (← skipEscaped cs)
    | c :: cs =>
      if c.toNat < 0x20 then .error (.malformed .controlCharacter)
      else skipStringFrom rounds cs

def skipString (bound : Nat) (cs : List Char) : Except JsonProblem (List Char) :=
  skipStringFrom bound cs

/-! ## Numbers -/

def splitDigits (cs : List Char) : List Char × List Char :=
  (cs.takeWhile Char.isDigit, cs.dropWhile Char.isDigit)

def digitsValue (start : Nat) (digits : List Char) : Nat :=
  digits.foldl (fun n c ↦ n * 10 + (c.toNat - '0'.toNat)) start

/-- What follows the digits of a number's whole part is of no interest as long
as it is well formed. -/
def skipExponent : List Char → Except JsonProblem (List Char)
  | e :: cs =>
    if e = 'e' ∨ e = 'E' then
      let cs := match cs with
        | '+' :: rest => rest
        | '-' :: rest => rest
        | _ => cs
      match splitDigits cs with
      | ([], _) => .error (.malformed .invalidNumber)
      | (_, rest) => .ok rest
    else .ok (e :: cs)
  | [] => .ok []

def skipFraction : List Char → Except JsonProblem (List Char)
  | '.' :: cs =>
    match splitDigits cs with
    | ([], _) => .error (.malformed .invalidNumber)
    | (_, rest) => skipExponent rest
  | cs => skipExponent cs

/-- Skips a number after its sign. -/
def skipNumber (cs : List Char) : Except JsonProblem (List Char) :=
  match splitDigits cs with
  | ([], _) => .error (.malformed .invalidNumber)
  | ('0' :: _ :: _, _) => .error (.malformed .invalidNumber)
  | (_, rest) => skipFraction rest

end JsonToken

end WordMachine
