/-!
# Tables of keys and values

What a TOML text describes: a table that gives keys their values.  A key has one
value, and a table is given in one way: under a heading of its own, between
braces, or by keys with points.  Only a table that other headings have merely
passed through can still get a heading.
-/

namespace WordMachine

/-- How a table came about. -/
inductive TomlOrigin where
  | heading
  /-- Only headings of tables inside it were given so far. -/
  | implied
  | dotted
deriving DecidableEq, Repr

/-- Numbers with a point and times are told apart from other values, but not from
each other. -/
inductive TomlValue where
  | integer (n : Int)
  | real
  | boolean (b : Bool)
  | string (s : String)
  | moment
  | list (items : List TomlValue)
  | inlineTable (entries : List (String × TomlValue))
  | table (origin : TomlOrigin) (entries : List (String × TomlValue))
  /-- Tables under repeated headings, the newest first. -/
  | tables (elements : List (List (String × TomlValue)))

abbrev TomlTable := List (String × TomlValue)

namespace TomlTable

/-- Gives a key another value, or its first one. -/
def set (name : String) (v : TomlValue) : TomlTable → TomlTable
  | [] => [(name, v)]
  | entry :: rest => if entry.1 = name then (name, v) :: rest else entry :: set name v rest

def add? (name : String) (v : TomlValue) (t : TomlTable) : Option TomlTable :=
  if (t.lookup name).isSome then none else some ((name, v) :: t)

/-- A value under a key behind a path of keys with points.  The tables on the way
may not have a heading, and the last of them has to come from such keys too. -/
def addDotted? (name : String) (v : TomlValue) : List String → TomlTable → Option TomlTable
  | [], t => t.add? name v
  | key :: path, t =>
    match t.lookup key with
    | none => do
      let inner ← addDotted? name v path []
      return t.set key (.table .dotted inner)
    | some (.table origin inner) =>
      if origin = .heading ∨ (path = [] ∧ origin ≠ .dotted) then none
      else do
        let inner ← addDotted? name v path inner
        return t.set key (.table origin inner)
    | some (.tables (newest :: others)) =>
      if path = [] then none
      else do
        let newest ← addDotted? name v path newest
        return t.set key (.tables (newest :: others))
    | some _ => none

/-- A change of the table under a heading. -/
def change? (f : TomlTable → Option TomlTable) : List String → TomlTable → Option TomlTable
  | [], t => f t
  | key :: path, t =>
    match t.lookup key with
    | none => do
      let inner ← change? f path []
      return t.set key (.table .implied inner)
    | some (.table origin inner) => do
      let inner ← change? f path inner
      return t.set key (.table origin inner)
    | some (.tables (newest :: others)) => do
      let newest ← change? f path newest
      return t.set key (.tables (newest :: others))
    | some _ => none

/-- A heading for one table. -/
def open? (name : String) (t : TomlTable) : Option TomlTable :=
  match t.lookup name with
  | none => some (t.set name (.table .heading []))
  | some (.table .implied inner) => some (t.set name (.table .heading inner))
  | some _ => none

/-- A heading that may be repeated, with a table for each time. -/
def append? (name : String) (t : TomlTable) : Option TomlTable :=
  match t.lookup name with
  | none => some (t.set name (.tables [[]]))
  | some (.tables elements) => some (t.set name (.tables ([] :: elements)))
  | some _ => none

end TomlTable

end WordMachine
