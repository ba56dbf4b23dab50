import WordMachine.Text.Hex

/-!
# Writing JSON

Values and their text, either on one line or with one entry a line.  The keys of
an object are written in ascending order.
-/

namespace WordMachine

inductive JsonValue where
  | null
  | boolean (b : Bool)
  /-- A number by its text. -/
  | number (text : String)
  | string (s : String)
  | list (items : List JsonValue)
  | object (entries : List (String × JsonValue))

namespace JsonValue

def ofNat (n : Nat) : JsonValue := .number (toString n)

def escape (c : Char) : List Char :=
  if c = '"' then ['\\', '"']
  else if c = '\\' then ['\\', '\\']
  else if c = '\x08' then ['\\', 'b']
  else if c = '\t' then ['\\', 't']
  else if c = '\n' then ['\\', 'n']
  else if c = '\x0c' then ['\\', 'f']
  else if c = '\r' then ['\\', 'r']
  else if c.toNat < 0x20 then ['\\', 'u', '0', '0'] ++ Hex.byteDigits (UInt8.ofNat c.toNat)
  else [c]

def quoted (s : String) : String :=
  String.ofList ('"' :: s.toList.flatMap escape ++ ['"'])

def sortedByKey (entries : List (String × String)) : List (String × String) :=
  entries.mergeSort fun a b ↦ a.1 ≤ b.1

/-! ## On one line -/

mutual

def compact : JsonValue → String
  | null => "null"
  | boolean b => toString b
  | number text => text
  | string s => quoted s
  | list items => "[" ++ ",".intercalate (compactItems items) ++ "]"
  | object entries =>
    let texts := (sortedByKey (compactEntries entries)).map fun entry ↦
      quoted entry.1 ++ ":" ++ entry.2
    "\x7b" ++ ",".intercalate texts ++ "\x7d"

def compactItems : List JsonValue → List String
  | [] => []
  | item :: items => compact item :: compactItems items

def compactEntries : List (String × JsonValue) → List (String × String)
  | [] => []
  | (key, value) :: entries => (key, compact value) :: compactEntries entries

end

/-! ## One entry a line -/

/-- Lines between brackets, each two blanks further in than these. -/
def bracketed (opening closing : String) (indent : String) (texts : List String) : String :=
  if texts.isEmpty then opening ++ closing
  else
    let inner := texts.map fun text ↦ indent ++ "  " ++ text
    opening ++ "\n" ++ ",\n".intercalate inner ++ "\n" ++ indent ++ closing

mutual

def pretty (indent : String) : JsonValue → String
  | null => "null"
  | boolean b => toString b
  | number text => text
  | string s => quoted s
  | list items => bracketed "[" "]" indent (prettyItems (indent ++ "  ") items)
  | object entries =>
    let texts := (sortedByKey (prettyEntries (indent ++ "  ") entries)).map fun entry ↦
      quoted entry.1 ++ ": " ++ entry.2
    bracketed "\x7b" "\x7d" indent texts

def prettyItems (indent : String) : List JsonValue → List String
  | [] => []
  | item :: items => pretty indent item :: prettyItems indent items

def prettyEntries (indent : String) : List (String × JsonValue) → List (String × String)
  | [] => []
  | (key, value) :: entries => (key, pretty indent value) :: prettyEntries indent entries

end

end JsonValue

end WordMachine
