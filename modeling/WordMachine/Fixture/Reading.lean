import WordMachine.Fixture.Basic
import WordMachine.Json.Record
import WordMachine.Word.BigEndian

/-!
# Fixtures in JSON

The readers of fixtures and their parts.  Numbers, addresses and bytes are
strings of hexadecimal digits.
-/

namespace WordMachine

namespace FixtureJson

def hexBytes : JsonReader (List UInt8) :=
  JsonReader.string.andThen fun text ↦
    match Hex.decodePadded text with
    | .ok bytes => .ok bytes
    | .error error => .error (.unfit (.badValue error.message))

def hexWord : JsonReader Word :=
  hexBytes.andThen fun bytes ↦
    match Word.ofBytes bytes with
    | .ok w => .ok w
    | .error fault => .error (.unfit (.badValue fault.message))

def hexAddress : JsonReader Address :=
  hexBytes.andThen fun bytes ↦
    match Address.ofBytes? bytes with
    | some address => .ok address
    | none => .error (.unfit (.badValue ("invalid address length: " ++ toString bytes.length)))

/-- A field that an object may leave out or give as `null`. -/
def optionalField {α β : Type} (name : String) (need : FieldNeed) (reader : JsonReader β)
    (set : Option β → α → α) : JsonField α :=
  JsonField.of name need reader.optional set

def code : JsonRecord FixtureCode where
  title := "FixtureCode"
  blank := FixtureCode.blank
  fields :=
    [optionalField "asm" .never .string fun v a ↦ { a with assembly := v },
      optionalField "bin" .never hexBytes fun v a ↦ { a with bytecode := v }]

def transaction : JsonRecord FixtureTransaction where
  title := "FixtureTx"
  blank := FixtureTransaction.blank
  fields :=
    [optionalField "to" .inLists hexAddress fun v a ↦ { a with recipient := v },
      optionalField "from" .inLists hexAddress fun v a ↦ { a with sender := v },
      optionalField "origin" .inLists hexAddress fun v a ↦ { a with origin := v },
      optionalField "gasprice" .inLists hexWord fun v a ↦ { a with gasPrice := v },
      optionalField "value" .inLists hexWord fun v a ↦ { a with value := v },
      optionalField "data" .inLists hexBytes fun v a ↦ { a with data := v }]

def block : JsonRecord FixtureBlock where
  title := "FixtureBlock"
  blank := FixtureBlock.blank
  fields :=
    [optionalField "basefee" .inLists hexWord fun v a ↦ { a with baseFee := v },
      optionalField "coinbase" .inLists hexAddress fun v a ↦ { a with coinbase := v },
      optionalField "timestamp" .inLists hexWord fun v a ↦ { a with timestamp := v },
      optionalField "number" .inLists hexWord fun v a ↦ { a with number := v },
      optionalField "difficulty" .inLists hexWord fun v a ↦ { a with difficulty := v },
      optionalField "gaslimit" .inLists hexWord fun v a ↦ { a with gasLimit := v },
      optionalField "chainid" .inLists hexWord fun v a ↦ { a with chainId := v }]

def account : JsonRecord FixtureAccount where
  title := "FixtureAccount"
  blank := FixtureAccount.blank
  fields :=
    [optionalField "balance" .inLists hexWord fun v a ↦ { a with balance := v },
      optionalField "code" .inLists code.reader fun v a ↦ { a with code := v }]

def expectation : JsonRecord Expectation where
  title := "FixtureExpect"
  blank := Expectation.blank
  fields :=
    [optionalField "stack" .inLists (.list .string) fun v a ↦ { a with stack := v },
      optionalField "success" .inLists .boolean fun v a ↦ { a with success := v },
      optionalField "return" .inLists hexBytes fun v a ↦ { a with payload := v }]

/-- Puts an entry into a list in the order of its keys; an entry of the same key
gives way. -/
def insertOrdered {α : Type} (key : String) (a : α) : List (String × α) → List (String × α)
  | [] => [(key, a)]
  | (k, b) :: rest =>
    if key < k then (key, a) :: (k, b) :: rest
    else if key = k then (key, a) :: rest
    else (k, b) :: insertOrdered key a rest

def ordered {α : Type} (entries : List (String × α)) : List (String × α) :=
  entries.foldl (fun sorted entry ↦ insertOrdered entry.1 entry.2 sorted) []

def state : JsonReader (List (String × FixtureAccount)) :=
  (JsonReader.entries account.reader).andThen fun entries ↦ .ok (ordered entries)

def fixture : JsonRecord Fixture where
  title := "Fixture"
  blank := Fixture.blank
  fields :=
    [.of "name" .always .string fun v a ↦ { a with name := v },
      optionalField "hint" .never .string fun v a ↦ { a with hint := v },
      .of "code" .always code.reader fun v a ↦ { a with code := v },
      optionalField "tx" .never transaction.reader fun v a ↦ { a with transaction := v },
      optionalField "block" .never block.reader fun v a ↦ { a with block := v },
      optionalField "state" .never state fun v a ↦ { a with state := v },
      .of "expect" .always expectation.reader fun v a ↦ { a with expectation := v }]

end FixtureJson

namespace Fixture

def parse (text : String) : Except JsonProblem Fixture :=
  FixtureJson.fixture.reader.parse text

def parseList (text : String) : Except JsonProblem (List Fixture) :=
  (JsonReader.list FixtureJson.fixture.reader).parse text

end Fixture

end WordMachine
