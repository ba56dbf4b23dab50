import WordMachine.Json.Reader

/-!
# Records in JSON

A record is an object with known keys, or a list of their values in the order in
which the fields are declared.  Keys that are not known are passed over.  A
record is read into a value that holds the default of every field at the
beginning.
-/

namespace WordMachine

/-- When a field may be left out. -/
inductive FieldNeed where
  | always
  /-- Only the object form may leave it out. -/
  | inLists
  /-- Both forms may leave it out. -/
  | never
deriving DecidableEq, Repr

structure JsonField (α : Type) where
  name : String
  need : FieldNeed
  read : JsonReader (α → α)

structure JsonRecord (α : Type) where
  title : String
  fields : List (JsonField α)
  blank : α

namespace JsonField

variable {α β : Type}

/-- A field whose value is put into the record by `set`. -/
def of (name : String) (need : FieldNeed) (reader : JsonReader β) (set : β → α → α) :
    JsonField α :=
  ⟨name, need, reader.andThen fun b ↦ .ok (set b)⟩

end JsonField

namespace JsonRecord

variable {α : Type}

def firstMissing? (r : JsonRecord α) (seen : List String) : Option String :=
  (r.fields.find? fun f ↦ f.need = .always ∧ !seen.contains f.name).map (·.name)

def objectFrom (r : JsonRecord α) (bound : Nat) :
    Nat → Bool → List String → α → List Char → Except JsonProblem (α × List Char)
  | 0, _, _, _, _ => .error (.ended .object)
  | rounds + 1, first, seen, a, cs => do
    match ← JsonReader.nextKey bound first cs with
    | (none, cs) =>
      match r.firstMissing? seen with
      | some name => .error (.unfit (.missingField name))
      | none => return (a, cs)
    | (some key, cs) =>
      match r.fields.find? fun f ↦ f.name = key with
      | some field =>
        if seen.contains key then .error (.unfit (.duplicateField key))
        else
          let (set, cs) ← field.read bound (← JsonReader.colon cs)
          objectFrom r bound rounds false (key :: seen) (set a) cs
      | none =>
        objectFrom r bound rounds false seen a (← JsonSkip.value bound (← JsonReader.colon cs))

/-- Reads the values of `fields`, the first of which is field number `index`. -/
def listFrom (r : JsonRecord α) (index : Nat) (a : α) : List (JsonField α) → JsonReader α
  | [], _, cs => do return (a, ← JsonReader.endList cs)
  | field :: fields, bound, cs => do
    let (more, cs) ← JsonReader.nextElement (index = 0) cs
    if more then
      let (set, cs) ← field.read bound cs
      listFrom r (index + 1) (set a) fields bound cs
    else if field.need = .never then listFrom r (index + 1) a fields bound cs
    else .error (.unfit (.tooShort index r.title r.fields.length))

def reader (r : JsonRecord α) : JsonReader α := fun bound cs ↦
  match JsonToken.skipBlanks cs with
  | '[' :: cs => r.listFrom 0 r.blank r.fields bound cs
  | '\x7b' :: cs => r.objectFrom bound bound true [] r.blank cs
  | cs => .error (JsonReader.complaint ("struct " ++ r.title) bound cs)

end JsonRecord

end WordMachine
