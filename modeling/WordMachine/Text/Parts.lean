/-!
# Parts of texts

Cutting a text at a character or at a byte, and looking for a part of it.
-/

namespace WordMachine

namespace Text

/-- The parts of a text between the places where `separator` stands. -/
def splitAt (separator : Char) : List Char → List (List Char)
  | [] => [[]]
  | c :: cs =>
    if c = separator then [] :: splitAt separator cs
    else
      match splitAt separator cs with
      | part :: parts => (c :: part) :: parts
      | [] => [[c]]

/-- The text behind its first `n` bytes, unless a character would be cut. -/
def dropBytes (n : Nat) : List Char → Option (List Char)
  | [] => if n = 0 then some [] else none
  | c :: cs =>
    if n = 0 then some (c :: cs)
    else if c.utf8Size ≤ n then dropBytes (n - c.utf8Size) cs
    else none

/-- The first `n` bytes of a text, unless a character would be cut. -/
def takeBytes (n : Nat) : List Char → Option (List Char)
  | [] => if n = 0 then some [] else none
  | c :: cs =>
    if n = 0 then some []
    else if c.utf8Size ≤ n then (takeBytes (n - c.utf8Size) cs).map (c :: ·)
    else none

/-- The bytes of a text from `start` up to `finish`, unless a character would be
cut. -/
def bytesBetween (start finish : Nat) (cs : List Char) : Option (List Char) := do
  takeBytes (finish - start) (← dropBytes start cs)

def contains (part : List Char) : List Char → Bool
  | [] => part.isEmpty
  | c :: cs => part.isPrefixOf (c :: cs) || contains part cs

end Text

end WordMachine
