import WordMachine.Json.Number
import WordMachine.Json.Skip

/-!
# Reading JSON for what it is to hold

A reader takes a value of one type off the head of a text.  It goes through the
text once, and the first problem that it meets is the one it reports, be it one
of grammar or of type.  Its first argument is a bound for the rounds of its
loops, larger than the number of characters in the text.
-/

namespace WordMachine

def JsonReader (α : Type) : Type := Nat → List Char → Except JsonProblem (α × List Char)

namespace JsonReader

variable {α β : Type}

/-- Reads a value and works on it further. -/
def andThen (reader : JsonReader α) (f : α → Except JsonProblem β) : JsonReader β :=
  fun bound cs ↦ do
  let (a, cs) ← reader bound cs
  let b ← f a
  return (b, cs)

/-- The complaint about a value of another type than expected.  Before its type
is of interest it has to be well formed as far as it has to be read. -/
def complaint (expected : String) (bound : Nat) (cs : List Char) : JsonProblem :=
  let wrong (kind : JsonKind) : JsonProblem := .unfit (.wrongType kind expected)
  let orElse {γ : Type} (r : Except JsonProblem γ) (f : γ → JsonProblem) : JsonProblem :=
    match r with
    | .ok c => f c
    | .error problem => problem
  match cs with
  | [] => .ended .value
  | 'n' :: cs => orElse (JsonToken.word "ull".toList cs) fun _ ↦ wrong .null
  | 't' :: cs => orElse (JsonToken.word "rue".toList cs) fun _ ↦ wrong (.boolean true)
  | 'f' :: cs => orElse (JsonToken.word "alse".toList cs) fun _ ↦ wrong (.boolean false)
  | '-' :: cs => orElse (JsonNumeral.read true cs) wrong
  | '"' :: cs => orElse (JsonToken.string bound cs) fun s ↦ wrong (.string s.1)
  | '[' :: _ => wrong .list
  | '\x7b' :: _ => wrong .object
  | c :: cs =>
    if c.isDigit then orElse (JsonNumeral.read false (c :: cs)) wrong
    else .malformed .expectedValue

def string : JsonReader String := fun bound cs ↦
  match JsonToken.skipBlanks cs with
  | '"' :: cs => JsonToken.string bound cs
  | cs => .error (complaint "a string" bound cs)

def boolean : JsonReader Bool := fun bound cs ↦
  match JsonToken.skipBlanks cs with
  | 't' :: cs => do return (true, ← JsonToken.word "rue".toList cs)
  | 'f' :: cs => do return (false, ← JsonToken.word "alse".toList cs)
  | cs => .error (complaint "a boolean" bound cs)

/-- A value or `null`. -/
def optional (reader : JsonReader α) : JsonReader (Option α) := fun bound cs ↦
  match JsonToken.skipBlanks cs with
  | 'n' :: cs => do return (none, ← JsonToken.word "ull".toList cs)
  | cs => do
    let (a, cs) ← reader bound cs
    return (some a, cs)

/-! ## Lists and objects -/

/-- Goes to the next element of a list, if there is one; `first` before the
first. -/
def nextElement (first : Bool) (cs : List Char) : Except JsonProblem (Bool × List Char) :=
  match JsonToken.skipBlanks cs with
  | [] => .error (.ended .list)
  | ']' :: cs => .ok (false, ']' :: cs)
  | c :: cs =>
    if first then .ok (true, c :: cs)
    else if c = ',' then
      match JsonToken.skipBlanks cs with
      | [] => .error (.ended .value)
      | ']' :: _ => .error (.malformed .trailingComma)
      | cs => .ok (true, cs)
    else .error (.malformed .expectedListEnd)

/-- The bracket after the last element that was asked for. -/
def endList (cs : List Char) : Except JsonProblem (List Char) :=
  match JsonToken.skipBlanks cs with
  | [] => .error (.ended .list)
  | ']' :: cs => .ok cs
  | ',' :: cs =>
    match JsonToken.skipBlanks cs with
    | ']' :: _ => .error (.malformed .trailingComma)
    | _ => .error (.malformed .trailingCharacters)
  | _ => .error (.malformed .trailingCharacters)

def elementsFrom (reader : JsonReader α) (bound : Nat) :
    Nat → Bool → List Char → Except JsonProblem (List α × List Char)
  | 0, _, _ => .error (.ended .list)
  | rounds + 1, first, cs => do
    let (more, cs) ← nextElement first cs
    if more then
      let (a, cs) ← reader bound cs
      let (as, cs) ← elementsFrom reader bound rounds false cs
      return (a :: as, cs)
    else return ([], ← endList cs)

def list (reader : JsonReader α) : JsonReader (List α) := fun bound cs ↦
  match JsonToken.skipBlanks cs with
  | '[' :: cs => elementsFrom reader bound bound true cs
  | cs => .error (complaint "a sequence" bound cs)

/-- Goes to the value of the next key of an object, if there is one, and gives
the key; `first` before the first.  The colon is still to be read. -/
def nextKey (bound : Nat) (first : Bool) (cs : List Char) :
    Except JsonProblem (Option String × List Char) :=
  let readKey (cs : List Char) : Except JsonProblem (Option String × List Char) := do
    let (key, cs) ← JsonToken.string bound cs
    return (some key, cs)
  match JsonToken.skipBlanks cs with
  | [] => .error (.ended .object)
  | '\x7d' :: cs => .ok (none, cs)
  | c :: cs =>
    if first then
      if c = '"' then readKey cs else .error (.malformed .keyNotString)
    else if c = ',' then
      match JsonToken.skipBlanks cs with
      | [] => .error (.ended .value)
      | '"' :: cs => readKey cs
      | '\x7d' :: _ => .error (.malformed .trailingComma)
      | _ => .error (.malformed .keyNotString)
    else .error (.malformed .expectedObjectEnd)

def colon (cs : List Char) : Except JsonProblem (List Char) :=
  match JsonToken.skipBlanks cs with
  | [] => .error (.ended .object)
  | ':' :: cs => .ok cs
  | _ => .error (.malformed .expectedColon)

def entriesFrom (reader : JsonReader α) (bound : Nat) :
    Nat → Bool → List Char → Except JsonProblem (List (String × α) × List Char)
  | 0, _, _ => .error (.ended .object)
  | rounds + 1, first, cs => do
    match ← nextKey bound first cs with
    | (none, cs) => return ([], cs)
    | (some key, cs) =>
      let (a, cs) ← reader bound (← colon cs)
      let (as, cs) ← entriesFrom reader bound rounds false cs
      return ((key, a) :: as, cs)

/-- The entries of an object in their order, repeated keys included. -/
def entries (reader : JsonReader α) : JsonReader (List (String × α)) := fun bound cs ↦
  match JsonToken.skipBlanks cs with
  | '\x7b' :: cs => entriesFrom reader bound bound true cs
  | cs => .error (complaint "a map" bound cs)

/-- The value of a whole text: nothing but blanks may follow it. -/
def parse (reader : JsonReader α) (text : String) : Except JsonProblem α := do
  let cs := text.toList
  let (a, cs) ← reader (cs.length + 1) cs
  match JsonToken.skipBlanks cs with
  | [] => return a
  | _ => .error (.malformed .trailingCharacters)

end JsonReader

end WordMachine
