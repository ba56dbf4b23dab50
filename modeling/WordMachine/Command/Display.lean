import WordMachine.Command.Response
import WordMachine.Fixture.Report
import WordMachine.Listing
import WordMachine.Settings

/-!
# Displays

Results, listings, tallies and settings as they are shown to the user, in words
and as the fields of a JSON object.
-/

namespace WordMachine

namespace Result

def fields (r : Result) : List (String × JsonValue) :=
  [("success", .boolean r.success), ("outcome", .string r.status.describe),
    ("stack", .list (r.stackHex.map .string)), ("return", .string r.payloadHex),
    ("steps", .ofNat r.steps)]

def text (r : Result) : String :=
  let stack :=
    if r.stack.isEmpty then ["Stack: (empty)"]
    else "Stack (top first):" :: r.stackHex.map ("  " ++ ·)
  "\n".intercalate (
    ["Success: " ++ toString r.success, "Outcome: " ++ r.status.describe] ++ stack ++
      ["Return: " ++ r.payloadHex, "Steps: " ++ toString r.steps])

end Result

namespace Instruction

def toJson (i : Instruction) : JsonValue :=
  .object [("pc", .ofNat i.pc), ("name", .string i.name),
    ("immediate",
      if i.immediate.isEmpty then .null else .string ("0x" ++ Hex.encode i.immediate))]

end Instruction

namespace Tally

def fields (t : Tally) : List (String × JsonValue) :=
  [("total", .ofNat t.total), ("passed", .ofNat t.passed), ("failed", .ofNat t.failed),
    ("skipped", .ofNat t.skipped), ("pass_rate", .number (shortestText t.passRate)),
    ("failures", .list (t.failures.map fun f ↦
      .object [("name", .string f.name), ("reason", .string f.reason)]))]

def summary (t : Tally) : List Piece :=
  let rule := "========================================"
  let failures :=
    if t.failures.isEmpty then ""
    else "\nFailed fixtures:\n" ++
      String.join (t.failures.map fun f ↦ "  - " ++ f.name ++ ": " ++ f.reason ++ "\n")
  [.text ("\n" ++ rule ++ "\nFixture Summary\n" ++ rule ++ "\nTotal:   " ++ toString t.total ++
      "\nPassed:  " ++ toString t.passed ++ "\nFailed:  " ++ toString t.failed ++
      "\nSkipped: " ++ toString t.skipped ++ "\nPass Rate: " ++ twoPlaces t.passRate ++
      "%\nDuration: "),
    .elapsed, .text ("\n" ++ failures)]

end Tally

namespace Settings

def fields (s : Settings) : List (String × JsonValue) :=
  [("step_limit", .ofNat s.stepLimit), ("memory_limit", .ofNat s.memoryLimit),
    ("log_level", .string s.logLevel)]

def display (s : Settings) : String :=
  "Step Limit: " ++ toString s.stepLimit ++ "\nMemory Limit: " ++ toString s.memoryLimit ++
    "\nLog Level: " ++ s.logLevel

end Settings

end WordMachine
