import WordMachine.Execution
import WordMachine.Toml.Document

/-!
# Settings

What the command line keeps between its calls.  A text that cannot be read as
settings, for whatever reason, counts as none at all, and what a text does not
mention takes its default.
-/

namespace WordMachine

structure Settings where
  /-- Zero stands for no limit. -/
  stepLimit : Nat
  memoryLimit : Nat
  logLevel : String
deriving DecidableEq, Repr

namespace Settings

def default : Settings := ⟨1000000, Memory.defaultLimit, "warn"⟩

def limits (s : Settings) : Limits :=
  ⟨if s.stepLimit = 0 then none else some s.stepLimit, s.memoryLimit⟩

/-! ## Reading -/

def number (t : TomlTable) (name : String) (fallback : Nat) : Option Nat :=
  match t.lookup name with
  | some (.integer n) => if 0 ≤ n then some n.toNat else none
  | some _ => none
  | none => some fallback

def string (t : TomlTable) (name : String) (fallback : String) : Option String :=
  match t.lookup name with
  | some (.string s) => some s
  | some _ => none
  | none => some fallback

def ofToml? (t : TomlTable) : Option Settings := do
  let stepLimit ← number t "step_limit" default.stepLimit
  let memoryLimit ← number t "memory_limit" default.memoryLimit
  let logLevel ← string t "log_level" default.logLevel
  return ⟨stepLimit, memoryLimit, logLevel⟩

def parse? (text : String) : Option Settings := (Toml.parse text).bind ofToml?

/-- The settings of a stored text, if there is one. -/
def load (text : Option String) : Settings := (text.bind parse?).getD default

/-! ## Writing -/

/-- Numbers beyond this cannot be written. -/
def numberBound : Nat := Nat.pow 2 63

def text (s : Settings) : String :=
  "step_limit = " ++ toString s.stepLimit ++ "\nmemory_limit = " ++ toString s.memoryLimit ++
    "\nlog_level = " ++ Toml.quoted s.logLevel ++ "\n"

/-- The text to be stored, unless a number cannot be written. -/
def store? (s : Settings) : Option String :=
  if s.stepLimit < numberBound ∧ s.memoryLimit < numberBound then some s.text else none

end Settings

end WordMachine
