import WordMachine.Decimal.Shortest
import WordMachine.Text.Quoted

/-!
# What can be wrong with a JSON text

A text may end too early, break the grammar, or hold a value that does not fit
what is asked of it.
-/

namespace WordMachine

/-- What was being read when the text ended. -/
inductive JsonPlace where
  | list | object | string | value
deriving DecidableEq, Repr

inductive JsonFlaw where
  | expectedColon
  | expectedListEnd
  | expectedObjectEnd
  | expectedIdent
  | expectedValue
  | invalidEscape
  | invalidNumber
  | numberOutOfRange
  | controlCharacter
  | keyNotString
  | loneSurrogate
  | trailingComma
  | trailingCharacters
  | unfinishedSurrogate
deriving DecidableEq, Repr

/-- A value as it is named in a complaint about its type. -/
inductive JsonKind where
  | null
  | boolean (b : Bool)
  | integer (n : Int)
  | real (x : Float)
  | string (s : String)
  | list
  | object

inductive JsonMisfit where
  | missingField (name : String)
  | duplicateField (name : String)
  | wrongType (found : JsonKind) (expected : String)
  /-- A list ended before the field at `index` of the record it stands for. -/
  | tooShort (index : Nat) (record : String) (fields : Nat)
  | badValue (reason : String)

inductive JsonProblem where
  | ended (place : JsonPlace)
  | malformed (flaw : JsonFlaw)
  | unfit (misfit : JsonMisfit)

namespace JsonPlace

def message : JsonPlace → String
  | list => "EOF while parsing a list"
  | object => "EOF while parsing an object"
  | string => "EOF while parsing a string"
  | value => "EOF while parsing a value"

end JsonPlace

namespace JsonFlaw

def message : JsonFlaw → String
  | expectedColon => "expected `:`"
  | expectedListEnd => "expected `,` or `]`"
  | expectedObjectEnd => "expected `,` or `\x7d`"
  | expectedIdent => "expected ident"
  | expectedValue => "expected value"
  | invalidEscape => "invalid escape"
  | invalidNumber => "invalid number"
  | numberOutOfRange => "number out of range"
  | controlCharacter => "control character (\\u0000-\\u001F) found while parsing a string"
  | keyNotString => "key must be a string"
  | loneSurrogate => "lone leading surrogate in hex escape"
  | trailingComma => "trailing comma"
  | trailingCharacters => "trailing characters"
  | unfinishedSurrogate => "unexpected end of hex escape"

end JsonFlaw

namespace JsonKind

def describe : JsonKind → String
  | null => "null"
  | boolean b => "boolean `" ++ toString b ++ "`"
  | integer n => "integer `" ++ toString n ++ "`"
  | real x => "floating point `" ++ shortestText x ++ "`"
  | string s => "string " ++ Quoted.text s
  | list => "sequence"
  | object => "map"

end JsonKind

namespace JsonMisfit

def message : JsonMisfit → String
  | missingField name => "missing field `" ++ name ++ "`"
  | duplicateField name => "duplicate field `" ++ name ++ "`"
  | wrongType found expected => "invalid type: " ++ found.describe ++ ", expected " ++ expected
  | tooShort index record fields =>
    "invalid length " ++ toString index ++ ", expected struct " ++ record ++ " with " ++
      toString fields ++ " elements"
  | badValue reason => reason

end JsonMisfit

namespace JsonProblem

def message : JsonProblem → String
  | ended place => place.message
  | malformed flaw => flaw.message
  | unfit misfit => misfit.message

end JsonProblem

end WordMachine
