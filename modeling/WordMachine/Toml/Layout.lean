/-!
# Blanks, comments and ends of lines

Lines end with a line feed, with or without a carriage return before it.  In
comments, as in strings, there are no control characters but the tab.
-/

namespace WordMachine

namespace Toml

def isBlank (c : Char) : Bool := c = ' ' ∨ c = '\t'

def skipBlanks (cs : List Char) : List Char := cs.dropWhile isBlank

def isForbidden (c : Char) : Bool := (c.toNat < 0x20 && c != '\t') || c.toNat = 0x7F

def newline? : List Char → Option (List Char)
  | '\n' :: cs => some cs
  | '\r' :: '\n' :: cs => some cs
  | _ => none

def skipComment : List Char → List Char
  | '#' :: cs => cs.dropWhile fun c ↦ !isForbidden c
  | cs => cs

/-- The rest of a line in which nothing but a comment follows. -/
def lineEnd? (cs : List Char) : Option (List Char) :=
  match skipComment (skipBlanks cs) with
  | [] => some []
  | cs => newline? cs

/-- Passes over blanks, comments and ends of lines; a comment has to end with its
line. -/
def layoutFrom? (inComment : Bool) : List Char → Option (List Char)
  | [] => if inComment then none else some []
  | '\n' :: cs => layoutFrom? false cs
  | '\r' :: '\n' :: cs => layoutFrom? false cs
  | c :: cs =>
    if inComment then if isForbidden c then none else layoutFrom? true cs
    else if isBlank c then layoutFrom? false cs
    else if c = '#' then layoutFrom? true cs
    else some (c :: cs)

def skipLayout? (cs : List Char) : Option (List Char) := layoutFrom? false cs

end Toml

end WordMachine
