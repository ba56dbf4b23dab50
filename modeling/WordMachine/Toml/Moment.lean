/-!
# Dates and times

A date, a time, or both with a `T` or a space between them and an offset behind
them if need be.  Days have to exist; the last minute may have a leap second.
-/

namespace WordMachine

namespace Toml

/-- A number of exactly `count` digits between two bounds. -/
def fixedDigits (count low high : Nat) (cs : List Char) : Option (Nat × List Char) :=
  let ds := cs.take count
  let n := ds.foldl (fun n c ↦ n * 10 + (c.toNat - '0'.toNat)) 0
  if ds.length = count ∧ ds.all Char.isDigit ∧ low ≤ n ∧ n ≤ high then some (n, cs.drop count)
  else none

def mark (c : Char) : List Char → Option (List Char)
  | d :: cs => if d = c then some cs else none
  | [] => none

def daysIn (year month : Nat) : Nat :=
  if month = 2 then
    if year % 4 = 0 ∧ (year % 100 ≠ 0 ∨ year % 400 = 0) then 29 else 28
  else if [4, 6, 9, 11].contains month then 30
  else 31

/-- What follows a date. -/
def date (cs : List Char) : Option (List Char) := do
  let (year, cs) ← fixedDigits 4 0 9999 cs
  let (month, cs) ← fixedDigits 2 1 12 (← mark '-' cs)
  let (_, cs) ← fixedDigits 2 1 (daysIn year month) (← mark '-' cs)
  return cs

/-- What follows a fraction of a second, if there is one. -/
def afterFraction (cs : List Char) : List Char :=
  match cs with
  | '.' :: c :: rest => if c.isDigit then rest.dropWhile Char.isDigit else cs
  | _ => cs

/-- What follows a time of the day. -/
def time (cs : List Char) : Option (List Char) := do
  let (_, cs) ← fixedDigits 2 0 23 cs
  let (_, cs) ← fixedDigits 2 0 59 (← mark ':' cs)
  let (_, cs) ← fixedDigits 2 0 60 (← mark ':' cs)
  return afterFraction cs

/-- What follows an offset, if there is one. -/
def offset (cs : List Char) : Option (List Char) :=
  match cs with
  | c :: rest =>
    if c = 'Z' ∨ c = 'z' then some rest
    else if c = '+' ∨ c = '-' then do
      let (_, rest) ← fixedDigits 2 0 23 rest
      let (_, rest) ← fixedDigits 2 0 59 (← mark ':' rest)
      return rest
    else some cs
  | [] => some []

/-- A colon in third place makes a time out of two digits. -/
def beginsTime (cs : List Char) : Bool :=
  (cs.take 2).all Char.isDigit && cs[2]? = some ':'

def beginsDate (cs : List Char) : Bool :=
  (cs.take 4).all Char.isDigit && cs[4]? = some '-'

/-- What follows a date, a time or both. -/
def moment (cs : List Char) : Option (List Char) :=
  if beginsTime cs then time cs
  else do
    let cs ← date cs
    match cs with
    | c :: rest =>
      if (c = 'T' ∨ c = 't' ∨ c = ' ') ∧ beginsTime rest then offset (← time rest) else some cs
    | [] => some []

end Toml

end WordMachine
