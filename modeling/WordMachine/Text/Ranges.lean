/-!
# Ranges of characters

A set of characters as a list of ranges of their numbers, both ends included.
The lists are in ascending order, and their ranges are apart from each other.
-/

namespace WordMachine

namespace Text

def isWithin (ranges : List (Nat × Nat)) (n : Nat) : Bool :=
  ranges.any fun range ↦ range.1 ≤ n && n ≤ range.2

end Text

end WordMachine
