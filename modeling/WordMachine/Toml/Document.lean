import WordMachine.Toml.Moment
import WordMachine.Toml.Number
import WordMachine.Toml.Text

/-!
# Documents

Reading a TOML text: lines with a key and its value, and headings for those that
follow.  Lists may go over several lines, tables between braces may not.
-/

namespace WordMachine

namespace Toml

/-- Lists and tables between braces may lie this deep in each other, and so many
keys may be joined by points. -/
def maxDepth : Nat := 79

/-! ## Keys -/

def isKeyChar (c : Char) : Bool := c.isAlphanum || c = '_' || c = '-'

/-- A key by itself or in a short string. -/
def key (bound : Nat) (cs : List Char) : Option (String × List Char) :=
  match cs with
  | '"' :: cs => do
    let (text, cs) ← basicFrom bound cs
    return (String.ofList text, cs)
  | '\'' :: cs => do
    let (text, cs) ← literalFrom cs
    return (String.ofList text, cs)
  | cs =>
    match cs.takeWhile isKeyChar with
    | [] => none
    | name => some (String.ofList name, cs.dropWhile isKeyChar)

/-- A path of keys joined by points, with blanks allowed around them: those
before the last one, the last one, and what follows. -/
def keyPath (bound : Nat) : Nat → List Char → Option (List String × String × List Char)
  | 0, _ => none
  | rounds + 1, cs => do
    let (name, cs) ← key bound (skipBlanks cs)
    match skipBlanks cs with
    | '.' :: cs =>
      let (path, last, cs) ← keyPath bound rounds cs
      return (name :: path, last, cs)
    | cs => return ([], name, cs)

/-! ## Values -/

/-- A value that holds no other. -/
def scalar (bound : Nat) (cs : List Char) : Option (TomlValue × List Char) :=
  match cs with
  | 't' :: 'r' :: 'u' :: 'e' :: cs => some (.boolean true, cs)
  | 'f' :: 'a' :: 'l' :: 's' :: 'e' :: cs => some (.boolean false, cs)
  | c :: _ =>
    if c = '"' ∨ c = '\'' then (string bound cs).map fun (s, cs) ↦ (.string s, cs)
    else if beginsDate cs || beginsTime cs then (moment cs).map fun cs ↦ (.moment, cs)
    else number cs
  | [] => none

/-- The items of a list up to its bracket.  Every round reads an item. -/
def itemsFrom (item : List Char → Option (TomlValue × List Char)) :
    Nat → List Char → Option (List TomlValue × List Char)
  | 0, _ => none
  | rounds + 1, cs => do
    match ← skipLayout? cs with
    | ']' :: cs => return ([], cs)
    | cs =>
      let (v, cs) ← item cs
      match ← skipLayout? cs with
      | ',' :: cs =>
        let (vs, cs) ← itemsFrom item rounds cs
        return (v :: vs, cs)
      | ']' :: cs => return ([v], cs)
      | _ => none

/-- More entries of a table between braces.  Every round reads an entry. -/
def entriesFrom (bound : Nat) (item : List Char → Option (TomlValue × List Char)) :
    Nat → TomlTable → List Char → Option (TomlTable × List Char)
  | 0, _, _ => none
  | rounds + 1, t, cs => do
    let (path, name, cs) ← keyPath bound maxDepth cs
    match cs with
    | '=' :: cs =>
      let (v, cs) ← item (skipBlanks cs)
      let t ← t.addDotted? name v path
      match skipBlanks cs with
      | ',' :: cs => entriesFrom bound item rounds t cs
      | '\x7d' :: cs => return (t, cs)
      | _ => none
    | _ => none

/-- A value in which lists and tables may lie `depth` deep. -/
def value (bound : Nat) : Nat → List Char → Option (TomlValue × List Char)
  | 0, cs => scalar bound cs
  | depth + 1, cs =>
    match cs with
    | '[' :: cs => (itemsFrom (value bound depth) bound cs).map fun (vs, cs) ↦ (.list vs, cs)
    | '\x7b' :: cs =>
      match skipBlanks cs with
      | '\x7d' :: cs => some (.inlineTable [], cs)
      | cs =>
        (entriesFrom bound (value bound depth) bound [] cs).map fun (t, cs) ↦
          (.inlineTable t, cs)
    | cs => scalar bound cs

/-! ## Lines -/

/-- A key with its value, and the end of the line. -/
def entry (bound : Nat) (cs : List Char) :
    Option (List String × String × TomlValue × List Char) := do
  let (path, name, cs) ← keyPath bound maxDepth cs
  match cs with
  | '=' :: cs =>
    let (v, cs) ← value bound maxDepth (skipBlanks cs)
    return (path, name, v, ← lineEnd? cs)
  | _ => none

/-- The lines that follow a heading, which add to the table so far.  Every round
uses up a character. -/
def linesFrom (bound : Nat) : Nat → TomlTable → List String → List Char → Option TomlTable
  | 0, _, _, _ => none
  | rounds + 1, t, heading, cs =>
    match skipBlanks cs with
    | [] => some t
    | '[' :: '[' :: cs => do
      let (path, name, cs) ← keyPath bound maxDepth cs
      match cs with
      | ']' :: ']' :: cs =>
        let t ← t.change? (·.append? name) path
        linesFrom bound rounds t (path ++ [name]) (← lineEnd? cs)
      | _ => none
    | '[' :: cs => do
      let (path, name, cs) ← keyPath bound maxDepth cs
      match cs with
      | ']' :: cs =>
        let t ← t.change? (·.open? name) path
        linesFrom bound rounds t (path ++ [name]) (← lineEnd? cs)
      | _ => none
    | c :: cs =>
      if c = '#' ∨ c = '\n' ∨ c = '\r' then do
        linesFrom bound rounds t heading (← lineEnd? (c :: cs))
      else do
        let (path, name, v, cs) ← entry bound (c :: cs)
        let t ← t.change? (·.addDotted? name v path) heading
        linesFrom bound rounds t heading cs

/-- A text may begin with a mark of its byte order. -/
def withoutMark : List Char → List Char
  | '\ufeff' :: cs => cs
  | cs => cs

def parse (text : String) : Option TomlTable :=
  let cs := withoutMark text.toList
  let bound := cs.length + 1
  linesFrom bound bound [] [] cs

end Toml

end WordMachine
