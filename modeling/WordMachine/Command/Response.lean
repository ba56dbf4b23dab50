import WordMachine.Fixture.Trouble
import WordMachine.Json.Value
import WordMachine.LogFilter

/-!
# Responses

What a call of the command line gives back: an exit code, output, and what goes
to the error channel.  Results are shown as text or as JSON, and so are errors.
-/

namespace WordMachine

/-- A piece of output; how long a run took is known only to who watches it. -/
inductive Piece where
  | text (s : String)
  | elapsed
deriving DecidableEq, Repr

structure Response where
  exit : Nat
  output : List Piece
  /-- The text for the error channel. -/
  complaint : String
deriving DecidableEq, Repr

inductive CommandError where
  | badCode (text : String) (error : HexError)
  | noSuchPath (path : String)
  | notStorable
  | badLogLevel (level : String) (problem : LogFilter.Problem)
  | fixture (trouble : Trouble)

namespace CommandError

def message : CommandError → String
  | badCode text error => "Invalid hex: " ++ text ++ ": " ++ error.message
  | noSuchPath path => "Invalid input: no such fixture file or directory: " ++ path
  | notStorable => "IO error: out-of-range value for u64 type"
  | badLogLevel level problem =>
    "Config error: invalid log level " ++ Quoted.text level ++ ": " ++ problem.message
  | fixture trouble => "Fixture error: " ++ trouble.message

end CommandError

namespace Piece

def render (elapsed : String) : Piece → String
  | text s => s
  | .elapsed => elapsed

end Piece

namespace Response

def render (r : Response) (elapsed : String) : String :=
  String.join (r.output.map (Piece.render elapsed))

def ofText (s : String) : Response := ⟨0, [.text (s ++ "\n")], ""⟩

/-- Either the fields as JSON or the message. -/
def ofFields (json : Bool) (fields : List (String × JsonValue)) (message : String) : Response :=
  ofText (if json then (JsonValue.object fields).pretty "" else message)

/-- The end of a call that could not go on. -/
def abort (problem : LogFilter.Problem) : Response := ⟨101, [], problem.message ++ "\n"⟩

def failure (json : Bool) (error : CommandError) : Response :=
  match error with
  | .badLogLevel _ .cutCharacter => abort .cutCharacter
  | _ =>
    if json then
      let value := JsonValue.object [("error", .string error.message), ("success", .boolean false)]
      ⟨1, [.text (value.compact ++ "\n")], ""⟩
    else ⟨1, [], "Error: " ++ error.message ++ "\n"⟩

theorem exit_failure_ne_zero (json : Bool) (error : CommandError) :
    (failure json error).exit ≠ 0 := by
  unfold failure
  split
  · exact Nat.succ_ne_zero 100
  · split
    · exact Nat.one_ne_zero
    · exact Nat.one_ne_zero

/-- The response with a line in front for every directive that was passed over. -/
def withIgnored (r : Response) (ignored : List (String × LogFilter.Problem)) : Response :=
  let line (directive : String) (problem : LogFilter.Problem) : String :=
    "ignoring `" ++ directive ++ "`: " ++ problem.message ++ "\n"
  { r with complaint := String.join (ignored.map fun (d, p) ↦ line d p) ++ r.complaint }

end Response

end WordMachine
