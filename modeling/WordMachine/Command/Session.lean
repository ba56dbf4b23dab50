import WordMachine.Command.Display
import WordMachine.Command.Invocation
import WordMachine.Fixture.Suite

/-!
# Sessions

A session is what lasts from one call of the command line to the next: the files
and the stored settings.  A call gives a response and the session after it.
Only a change of settings that succeeds as a whole leaves a trace.
-/

namespace WordMachine

structure Session where
  files : FileTree
  /-- The text of the stored settings, if there is one. -/
  stored : Option String

/-- The bytes of a program argument; unlike fixtures it has to have all digits. -/
def readCode (argument : String) : Except CommandError (List UInt8) :=
  let text := Text.trimmed argument
  match Hex.decode (Hex.unmarked text) with
  | .ok bytes => .ok bytes
  | .error error => .error (.badCode text error)

namespace Settings

/-- The settings with new values, if the log level is a filter. -/
def update (s : Settings) (stepLimit : Option Nat) (logLevel : Option String) :
    Except CommandError Settings :=
  let s := { s with stepLimit := stepLimit.getD s.stepLimit }
  match logLevel with
  | none => .ok s
  | some level =>
    match LogFilter.problem? level with
    | some problem => .error (.badLogLevel level problem)
    | none => .ok { s with logLevel := level }

end Settings

namespace Session

def settings (s : Session) : Settings := Settings.load s.stored

def runCode (s : Session) (json : Bool) (code : String) (stepLimit : Option Nat) : Response :=
  match readCode code with
  | .error error => .failure json error
  | .ok bytes =>
    let settings := { s.settings with stepLimit := stepLimit.getD s.settings.stepLimit }
    let result := run bytes.toArray settings.limits
    .ofFields json result.fields result.text

def disassemble (json : Bool) (code : String) : Response :=
  match readCode code with
  | .error error => .failure json error
  | .ok bytes =>
    let instructions := listing bytes.toArray
    .ofFields json [("instructions", .list (instructions.map (·.toJson)))]
      ("\n".intercalate (instructions.map (·.line)))

def runFixtures (s : Session) (json : Bool) (path : String) (filter : Option String)
    (verbose : Bool) : Response :=
  match s.files.find path with
  | .error _ => .failure json (.noSuchPath path)
  | .ok _ =>
    let suite := Suite.runPath s.settings.limits filter s.files path
    let progress :=
      if verbose then suite.progress.map fun p ↦ Piece.text (p.line ++ "\n") else []
    match suite.outcome with
    | .error trouble =>
      let response := Response.failure json (.fixture trouble)
      { response with output := progress ++ response.output }
    | .ok tally =>
      let report :=
        if json then [Piece.text ((JsonValue.object tally.fields).pretty "" ++ "\n")]
        else tally.summary
      ⟨if tally.allPassed then 0 else 1, progress ++ report, ""⟩

/-- Stores new settings, or shows those that are stored. -/
def configure (s : Session) (json : Bool) (display : Bool) (stepLimit : Option Nat)
    (logLevel : Option String) : Response × Session :=
  if stepLimit.isSome ∨ logLevel.isSome then
    match s.settings.update stepLimit logLevel with
    | .error error => (.failure json error, s)
    | .ok settings =>
      match settings.store? with
      | none => (.failure json .notStorable, s)
      | some text =>
        (.ofFields json [("status", .string "saved")] "Configuration saved",
          { s with stored := some text })
  else if display then (.ofFields json s.settings.fields s.settings.display, s)
  else
    (.ofFields json []
      "Use --show to display config, or --set-step-limit/--set-log-level to modify", s)

def obey (s : Session) (json : Bool) : Command → Response × Session
  | .run code stepLimit => (s.runCode json code stepLimit, s)
  | .fixtures path filter verbose => (s.runFixtures json path filter verbose, s)
  | .disassemble code => (disassemble json code, s)
  | .configure display stepLimit logLevel => s.configure json display stepLimit logLevel

/-- The log filter is put to use before the command; what is wrong with it is
passed over as far as possible. -/
def perform (s : Session) (invocation : Invocation) : Response × Session :=
  match LogFilter.ignored? (invocation.logLevel.getD s.settings.logLevel) with
  | none => (.abort .cutCharacter, s)
  | some ignored =>
    let (response, after) := s.obey invocation.json invocation.command
    (response.withIgnored ignored, after)

/-- One call of the command line. -/
def call (s : Session) (arguments : List String) : Response × Session :=
  match Invocation.ofArguments arguments with
  | .error .help => (⟨0, [], ""⟩, s)
  | .error .misuse => (⟨2, [], ""⟩, s)
  | .ok invocation => s.perform invocation

end Session

end WordMachine
