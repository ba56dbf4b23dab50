/-!
# The command line

What a list of arguments asks for.  Options are long and may stand before or
behind other arguments; each may be given once before the name of the command
and, where it holds for all commands, once more behind it.  After `--` there are
no options.
-/

namespace WordMachine

inductive Command where
  | run (code : String) (stepLimit : Option Nat)
  | fixtures (path : String) (filter : Option String) (verbose : Bool)
  | disassemble (code : String)
  | configure (display : Bool) (stepLimit : Option Nat) (logLevel : Option String)
deriving DecidableEq, Repr

structure Invocation where
  json : Bool
  /-- The log filter of this call, in place of the stored one. -/
  logLevel : Option String
  command : Command
deriving DecidableEq, Repr

/-- Why a list of arguments asks for no command. -/
inductive Refusal where
  | help
  | misuse
deriving DecidableEq, Repr

namespace Invocation

inductive CommandName where
  | run | fixtures | disasm | config
deriving DecidableEq, Repr

inductive OptionName where
  | json | logLevel | stepLimit | filter | verbose | display | setStepLimit | setLogLevel
deriving DecidableEq, Repr

namespace OptionName

def text : OptionName → String
  | json => "json"
  | logLevel => "log-level"
  | stepLimit => "step-limit"
  | filter => "filter"
  | verbose => "verbose"
  | display => "show"
  | setStepLimit => "set-step-limit"
  | setLogLevel => "set-log-level"

def takesValue : OptionName → Bool
  | json | verbose | display => false
  | _ => true

def isNumber : OptionName → Bool
  | stepLimit | setStepLimit => true
  | _ => false

end OptionName

namespace CommandName

def ofText? : String → Option CommandName
  | "run" => some run
  | "fixtures" => some fixtures
  | "disasm" => some disasm
  | "config" => some config
  | _ => none

def options : CommandName → List OptionName
  | run => [.json, .logLevel, .stepLimit]
  | fixtures => [.json, .logLevel, .filter, .verbose]
  | disasm => [.json, .logLevel]
  | config => [.json, .logLevel, .display, .setStepLimit, .setLogLevel]

/-- Every command but one has exactly one argument of its own. -/
def argumentCount : CommandName → Nat
  | config => 0
  | _ => 1

/-- A path may not be empty. -/
def acceptsArgument : CommandName → String → Bool
  | fixtures, text => text != ""
  | _, _ => true

end CommandName

/-- Numbers of 64 bits, with an optional plus sign. -/
def number? (text : String) : Option Nat :=
  let digits := match text.toList with
    | '+' :: rest => rest
    | cs => cs
  if !digits.isEmpty && digits.all Char.isDigit then
    let n := digits.foldl (fun n c ↦ n * 10 + (c.toNat - '0'.toNat)) 0
    if n < Nat.pow 2 64 then some n else none
  else none

/-- The options given so far, with their values, and the other arguments. -/
structure Collected where
  options : List (OptionName × String)
  arguments : List String
deriving DecidableEq, Repr

namespace Collected

def empty : Collected := ⟨[], []⟩

def has (c : Collected) (name : OptionName) : Bool := c.options.any (·.1 = name)

def value? (c : Collected) (name : OptionName) : Option String := c.options.lookup name

def add (c : Collected) (name : OptionName) (value : String) : Except Refusal Collected :=
  if c.has name ∨ (name.isNumber ∧ (number? value).isNone) then .error .misuse
  else .ok { c with options := (name, value) :: c.options }

end Collected

/-- An argument that looks like an option, as its name and its value if one is
attached to it. -/
def longOption? (argument : String) : Option (String × Option String) :=
  match argument.toList with
  | '-' :: '-' :: cs =>
    let name := String.ofList (cs.takeWhile (· != '='))
    match cs.dropWhile (· != '=') with
    | [] => some (name, none)
    | _ :: value => some (name, some (String.ofList value))
  | _ => none

def looksLikeOption (argument : String) : Bool :=
  match argument.toList with
  | '-' :: _ :: _ => true
  | _ => false

def isHelp (argument : String) : Bool :=
  argument = "--help" ∨ ['-', 'h'].isPrefixOf argument.toList

def isVersion (argument : String) : Bool :=
  argument = "--version" ∨ ['-', 'V'].isPrefixOf argument.toList

/-- Takes one option off the arguments. -/
def readOption (allowed : List OptionName) (c : Collected) (argument : String)
    (rest : List String) : Except Refusal (Collected × List String) :=
  match longOption? argument with
  | none => .error .misuse
  | some (text, attached) =>
    match allowed.find? (·.text = text) with
    | none => .error .misuse
    | some name =>
      match name.takesValue, attached, rest with
      | true, some value, rest => do return (← c.add name value, rest)
      | true, none, value :: rest =>
        if looksLikeOption value then .error .misuse else do return (← c.add name value, rest)
      | true, none, [] => .error .misuse
      | false, none, rest => do return (← c.add name "", rest)
      | false, some _, _ => .error .misuse

def addArgument (name : CommandName) (c : Collected) (argument : String) :
    Except Refusal Collected :=
  if c.arguments.length < name.argumentCount ∧ name.acceptsArgument argument then
    .ok { c with arguments := c.arguments ++ [argument] }
  else .error .misuse

/-- The arguments behind the name of a command.  Every round takes at least one
of them off. -/
def collect (name : CommandName) : Nat → Collected → List String → Except Refusal Collected
  | 0, c, _ => .ok c
  | rounds + 1, c, arguments =>
    match arguments with
    | [] => .ok c
    | "--" :: rest => rest.foldlM (addArgument name) c
    | argument :: rest =>
      if isHelp argument then .error .help
      else if looksLikeOption argument then do
        let (c, rest) ← readOption name.options c argument rest
        collect name rounds c rest
      else do
        let c ← addArgument name c argument
        collect name rounds c rest

def commandOf (name : CommandName) (c : Collected) : Except Refusal Command :=
  let numberOf (option : OptionName) : Option Nat := (c.value? option).bind number?
  match name, c.arguments with
  | .run, [code] => .ok (.run code (numberOf .stepLimit))
  | .fixtures, [path] => .ok (.fixtures path (c.value? .filter) (c.has .verbose))
  | .disasm, [code] => .ok (.disassemble code)
  | .config, [] =>
    .ok (.configure (c.has .display) (numberOf .setStepLimit) (c.value? .setLogLevel))
  | _, _ => .error .misuse

/-- The arguments up to the name of the command and then those behind it. -/
def readFrom : Nat → Collected → List String → Except Refusal Invocation
  | 0, _, _ => .error .misuse
  | rounds + 1, c, arguments =>
    match arguments with
    | [] => .error .misuse
    | argument :: rest =>
      if isHelp argument ∨ isVersion argument then .error .help
      else if looksLikeOption argument then do
        let (c, rest) ← readOption [.json, .logLevel] c argument rest
        readFrom rounds c rest
      else
        match CommandName.ofText? argument with
        | some name => do
          let inner ← collect name (rest.length + 1) Collected.empty rest
          let command ← commandOf name inner
          let logLevel := (inner.value? .logLevel).or (c.value? .logLevel)
          return ⟨c.has .json || inner.has .json, logLevel, command⟩
        | none =>
          if argument = "help" then
            match rest with
            | [] => .error .help
            | [name] =>
              if name = "help" ∨ (CommandName.ofText? name).isSome then .error .help
              else .error .misuse
            | _ => .error .misuse
          else .error .misuse

def ofArguments (arguments : List String) : Except Refusal Invocation :=
  readFrom (arguments.length + 1) Collected.empty arguments

end Invocation

end WordMachine
