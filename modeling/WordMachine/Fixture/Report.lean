import WordMachine.Decimal.Shortest
import WordMachine.Fixture.Verdict
import WordMachine.Text.Parts

/-!
# Reports on lists of fixtures

Every fixture of a list has passed, failed or been skipped.  One is skipped
when its name does not contain the text that was asked for, or when it has no
bytecode.  Counts over several lists are added up in a tally.
-/

namespace WordMachine

inductive Verdict where
  | passed
  | failed (reason : String)
  | skipped
deriving DecidableEq, Repr

/-- A failed fixture and the reason. -/
structure Failure where
  name : String
  reason : String
deriving DecidableEq, Repr

structure Report where
  passed : List String
  failed : List Failure
  skipped : List String
deriving DecidableEq, Repr

namespace Fixture

def isSelected (f : Fixture) (filter : Option String) : Bool :=
  match filter with
  | none => true
  | some part => Text.contains part.toList f.name.toList

/-- The reason with the fixture's hint, even an empty one. -/
def withHint (f : Fixture) (reason : String) : String :=
  match f.hint with
  | some hint => reason ++ " (hint: " ++ hint ++ ")"
  | none => reason

def verdict (f : Fixture) (limits : Limits) (filter : Option String) : Verdict :=
  if f.isSelected filter then
    match f.check limits with
    | .ok () => .passed
    | .error .noBytecode => .skipped
    | .error trouble => .failed (f.withHint trouble.message)
  else .skipped

end Fixture

namespace Report

def empty : Report := ⟨[], [], []⟩

/-- The report with one more fixture in front. -/
def cons (name : String) (verdict : Verdict) (r : Report) : Report :=
  match verdict with
  | .passed => { r with passed := name :: r.passed }
  | .failed reason => { r with failed := ⟨name, reason⟩ :: r.failed }
  | .skipped => { r with skipped := name :: r.skipped }

def ofFixtures (limits : Limits) (filter : Option String) (fixtures : List Fixture) : Report :=
  fixtures.foldr (fun f r ↦ cons f.name (f.verdict limits filter) r) empty

/-- The number of fixtures that were run. -/
def total (r : Report) : Nat := r.passed.length + r.failed.length

end Report

/-- The share of passed fixtures in percent; all of them when none was run. -/
def passRate (passed executed : Nat) : Float :=
  if executed = 0 then 100.0 else passed.toFloat / executed.toFloat * 100.0

namespace Report

def passRate (r : Report) : Float := WordMachine.passRate r.passed.length r.total

end Report

structure Tally where
  total : Nat
  passed : Nat
  failed : Nat
  skipped : Nat
  failures : List Failure
deriving DecidableEq, Repr

namespace Tally

def empty : Tally := ⟨0, 0, 0, 0, []⟩

def add (t : Tally) (r : Report) : Tally where
  total := t.total + r.total
  passed := t.passed + r.passed.length
  failed := t.failed + r.failed.length
  skipped := t.skipped + r.skipped.length
  failures := t.failures ++ r.failed

def allPassed (t : Tally) : Bool := t.failed == 0

def passRate (t : Tally) : Float := WordMachine.passRate t.passed (t.passed + t.failed)

end Tally

end WordMachine
