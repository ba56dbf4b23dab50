import WordMachine.Execution
import WordMachine.FileTree
import WordMachine.Json.Problem
import WordMachine.Literal
import WordMachine.Word.Rendering

/-!
# What keeps fixtures from passing

Files that cannot be read, texts that do not hold fixtures, parts of a fixture
that make no sense, and runs that end otherwise than expected.
-/

namespace WordMachine

/-- How a run differs from what was expected of it. -/
inductive Mismatch where
  | success (expected actual : Bool) (status : Status)
  | stack (expected actual : List Word)
  | payload (expected actual : List UInt8)
deriving DecidableEq, Repr

namespace Mismatch

def message : Mismatch → String
  | success expected actual status =>
    "success mismatch: expected " ++ toString expected ++ ", got " ++ toString actual ++ " (" ++
      status.describe ++ ")"
  | stack expected actual =>
    "stack mismatch: expected [" ++ Word.hexList expected ++ "], got [" ++
      Word.hexList actual ++ "]"
  | payload expected actual =>
    "return mismatch: expected 0x" ++ Hex.encode expected ++ ", got 0x" ++ Hex.encode actual

end Mismatch

inductive Trouble where
  | file (problem : FileProblem)
  | json (problem : JsonProblem)
  | addressNotHex (error : HexError)
  | addressLength (key : String)
  | literal (error : LiteralError)
  | mismatch (mismatch : Mismatch)
  /-- The program is given in readable form only. -/
  | noBytecode

namespace Trouble

def message : Trouble → String
  | file problem => "IO error: " ++ problem.message
  | json problem => "JSON error: " ++ problem.message
  | addressNotHex error => "Hex error: " ++ error.message
  | addressLength key => "Parse error: invalid state address: " ++ key
  | literal error => error.message
  | mismatch m => "Assertion failed: " ++ m.message
  | noBytecode => "Unsupported: assembly-only fixture, no bytecode"

end Trouble

end WordMachine
