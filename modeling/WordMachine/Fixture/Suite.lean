import WordMachine.Fixture.Reading
import WordMachine.Fixture.Report

/-!
# Fixtures in files

A file holds a list of fixtures; a directory stands for all its `json` files,
one after the other.  The first file that cannot be read ends the run.
-/

namespace WordMachine

/-- How the fixtures of one file fared. -/
structure FileProgress where
  path : String
  passed : Nat
  failed : Nat
deriving DecidableEq, Repr

/-- The files of a directory that were finished, and the outcome over all. -/
structure SuiteRun where
  progress : List FileProgress
  outcome : Except Trouble Tally

namespace FileProgress

def line (p : FileProgress) : String :=
  "File: " ++ Quoted.text p.path ++ " - " ++ toString p.passed ++ " passed, " ++
    toString p.failed ++ " failed"

end FileProgress

namespace Suite

def readFixtures (content : ByteArray) : Except Trouble (List Fixture) :=
  match FileTree.text content with
  | .error problem => .error (.file problem)
  | .ok text =>
    match Fixture.parseList text with
    | .error problem => .error (.json problem)
    | .ok fixtures => .ok fixtures

def runFile (limits : Limits) (filter : Option String) (content : ByteArray) :
    Except Trouble Report := do
  let fixtures ← readFixtures content
  return Report.ofFixtures limits filter fixtures

/-- Runs files one after the other, adding to a tally. -/
def runFiles (limits : Limits) (filter : Option String) (tally : Tally) :
    List (String × ByteArray) → SuiteRun
  | [] => ⟨[], .ok tally⟩
  | (path, content) :: rest =>
    match runFile limits filter content with
    | .error trouble => ⟨[], .error trouble⟩
    | .ok report =>
      let later := runFiles limits filter (tally.add report) rest
      ⟨⟨path, report.passed.length, report.failed.length⟩ :: later.progress, later.outcome⟩

/-- Runs the file or the directory at a path. -/
def runPath (limits : Limits) (filter : Option String) (root : FileTree) (path : String) :
    SuiteRun :=
  match root.find path with
  | .error problem => ⟨[], .error (.file problem)⟩
  | .ok (.file content) => ⟨[], do
      let report ← runFile limits filter content
      return Tally.empty.add report⟩
  | .ok (.directory entries) =>
    runFiles limits filter Tally.empty (FileTree.jsonFiles path (.directory entries))

end Suite

end WordMachine
