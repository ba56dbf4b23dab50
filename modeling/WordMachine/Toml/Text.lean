import WordMachine.Text.Hex
import WordMachine.Toml.Layout

/-!
# Strings

A string stands between quotes, with escapes, or between apostrophes, without
any.  Three of either begin a long string, which may have several lines; a line
feed right behind them does not count.  Of the four forms, writing takes the
first that leaves the text as it is, and quotes with escapes if none does.
-/

namespace WordMachine

inductive TomlStyle where
  | basic | literal | longBasic | longLiteral
deriving DecidableEq, Repr

namespace TomlStyle

def isLong : TomlStyle → Bool
  | longBasic | longLiteral => true
  | _ => false

def delimiter : TomlStyle → List Char
  | basic => ['"']
  | literal => ['\'']
  | longBasic => ['"', '"', '"']
  | longLiteral => ['\'', '\'', '\'']

end TomlStyle

namespace Toml

/-! ## Writing -/

/-- The length of the longest row of a character, given that a row of `current`
has just been passed. -/
def longestRun (mark : Char) (current : Nat) : List Char → Nat
  | [] => current
  | c :: cs =>
    if c = mark then longestRun mark (current + 1) cs
    else max current (longestRun mark 0 cs)

def style (cs : List Char) : TomlStyle :=
  let quotes := longestRun '"' 0 cs
  let apostrophes := longestRun '\'' 0 cs
  let backslash := cs.contains '\\'
  let lines := cs.contains '\n'
  let controls := cs.any fun c ↦ isForbidden c && c != '\n'
  if !controls && !backslash && quotes = 0 && !lines then .basic
  else if !controls && apostrophes = 0 && !lines then .literal
  else if !controls && !backslash && quotes ≤ 2 then .longBasic
  else if !controls && apostrophes ≤ 2 then .longLiteral
  else if lines then .longBasic
  else .basic

/-- One character between quotes. -/
def escape (c : Char) : List Char :=
  if c = '"' then ['\\', '"']
  else if c = '\\' then ['\\', '\\']
  else if c = '\x08' then ['\\', 'b']
  else if c = '\t' then ['\\', 't']
  else if c = '\n' then ['\\', 'n']
  else if c = '\x0c' then ['\\', 'f']
  else if c = '\r' then ['\\', 'r']
  else if isForbidden c then
    ['\\', 'u', '0', '0'] ++ (Hex.byteDigits (UInt8.ofNat c.toNat)).map Char.toUpper
  else [c]

/-- A text between three quotes, `quotes` of its own having just been written.  No
more than two may stand in a row. -/
def escapeLong (quotes : Nat) : List Char → List Char
  | [] => []
  | c :: cs =>
    if c = '"' ∧ quotes < 2 then '"' :: escapeLong (quotes + 1) cs
    else if c = '\n' then '\n' :: escapeLong 0 cs
    else escape c ++ escapeLong 0 cs

def body (style : TomlStyle) (cs : List Char) : List Char :=
  match style with
  | .basic => cs.flatMap escape
  | .longBasic => escapeLong 0 cs
  | _ => cs

def written (style : TomlStyle) (cs : List Char) : List Char :=
  let head := if style.isLong && cs.contains '\n' then ['\n'] else []
  style.delimiter ++ head ++ body style cs ++ style.delimiter

def quoted (s : String) : String :=
  String.ofList (written (style s.toList) s.toList)

/-! ## Reading -/

/-- A character by its number in `count` digits. -/
def numbered (count : Nat) (cs : List Char) : Option (Char × List Char) := do
  let digits ← (cs.take count).mapM Hex.digitValue?
  let n := digits.foldl (fun n d ↦ n * 16 + d) 0
  if digits.length = count ∧ n.isValidChar then return (Char.ofNat n, cs.drop count) else none

/-- What follows a backslash. -/
def escaped : List Char → Option (Char × List Char)
  | '"' :: cs => some ('"', cs)
  | '\\' :: cs => some ('\\', cs)
  | 'b' :: cs => some ('\x08', cs)
  | 't' :: cs => some ('\t', cs)
  | 'n' :: cs => some ('\n', cs)
  | 'f' :: cs => some ('\x0c', cs)
  | 'r' :: cs => some ('\r', cs)
  | 'u' :: cs => numbered 4 cs
  | 'U' :: cs => numbered 8 cs
  | _ => none

/-- A string after its opening quote.  Every round uses up a character. -/
def basicFrom : Nat → List Char → Option (List Char × List Char)
  | 0, _ => none
  | rounds + 1, cs =>
    match cs with
    | [] => none
    | '"' :: cs => some ([], cs)
    | '\\' :: cs => do
      let (c, cs) ← escaped cs
      let (text, cs) ← basicFrom rounds cs
      return (c :: text, cs)
    | c :: cs =>
      if isForbidden c then none
      else do
        let (text, cs) ← basicFrom rounds cs
        return (c :: text, cs)

/-- A string after its opening apostrophe. -/
def literalFrom : List Char → Option (List Char × List Char)
  | [] => none
  | '\'' :: cs => some ([], cs)
  | c :: cs =>
    if isForbidden c then none
    else do
      let (text, cs) ← literalFrom cs
      return (c :: text, cs)

/-- The end of a long string, with the one or two marks that may stand right
before its delimiter. -/
def closing? (mark : Char) (cs : List Char) : Option (List Char × List Char) :=
  let marks := (cs.takeWhile (· = mark)).length
  if marks < 3 then none
  else
    let text := min marks 5 - 3
    some (List.replicate text mark, cs.drop (text + 3))

/-- Passes over blanks and ends of lines. -/
def skipLines : List Char → List Char
  | '\r' :: '\n' :: cs => skipLines cs
  | c :: cs => if isBlank c ∨ c = '\n' then skipLines cs else c :: cs
  | [] => []

/-- The text behind a backslash at the end of a line. -/
def continuation? (cs : List Char) : Option (List Char) :=
  (newline? (skipBlanks cs)).map skipLines

/-- A long string with escapes, after its opening quotes.  Every round uses up a
character. -/
def longBasicFrom : Nat → List Char → Option (List Char × List Char)
  | 0, _ => none
  | rounds + 1, cs =>
    match closing? '"' cs with
    | some done => some done
    | none =>
      match cs with
      | [] => none
      | '\\' :: cs =>
        match continuation? cs with
        | some cs => longBasicFrom rounds cs
        | none => do
          let (c, cs) ← escaped cs
          let (text, cs) ← longBasicFrom rounds cs
          return (c :: text, cs)
      | '\r' :: '\n' :: cs => do
        let (text, cs) ← longBasicFrom rounds cs
        return ('\n' :: text, cs)
      | c :: cs =>
        if isForbidden c && c != '\n' then none
        else do
          let (text, cs) ← longBasicFrom rounds cs
          return (c :: text, cs)

/-- A long string without escapes, after its opening apostrophes. -/
def longLiteralFrom : Nat → List Char → Option (List Char × List Char)
  | 0, _ => none
  | rounds + 1, cs =>
    match closing? '\'' cs with
    | some done => some done
    | none =>
      match cs with
      | [] => none
      | '\r' :: '\n' :: cs => do
        let (text, cs) ← longLiteralFrom rounds cs
        return ('\n' :: text, cs)
      | c :: cs =>
        if isForbidden c && c != '\n' then none
        else do
          let (text, cs) ← longLiteralFrom rounds cs
          return (c :: text, cs)

def skipFirstNewline (cs : List Char) : List Char := (newline? cs).getD cs

/-- A string in one of the four forms at the head of a text. -/
def string (bound : Nat) (cs : List Char) : Option (String × List Char) := do
  let (text, cs) ← match cs with
    | '"' :: '"' :: '"' :: cs => longBasicFrom bound (skipFirstNewline cs)
    | '\'' :: '\'' :: '\'' :: cs => longLiteralFrom bound (skipFirstNewline cs)
    | '"' :: cs => basicFrom bound cs
    | '\'' :: cs => literalFrom cs
    | _ => none
  return (String.ofList text, cs)

end Toml

end WordMachine
