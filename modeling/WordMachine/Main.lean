import WordMachine.Command.Session

/-!
# The program

Reads from the disk what a call needs, performs the call and writes what comes
of it.
-/

namespace WordMachine

namespace Disk

/-- What stands at a path, if anything does. -/
partial def read? (path : String) : IO (Option FileTree) := do
  let place := (← IO.currentDir) / path
  if ← place.isDir then
    let entries ← place.readDir
    let nodes ← entries.toList.filterMapM fun entry ↦ do
      let node ← read? (FileTree.join path entry.fileName)
      return node.map fun node ↦ (entry.fileName, node)
    return some (.directory nodes)
  else if ← place.pathExists then
    return some (.file (← IO.FS.readBinFile place))
  else
    return none

/-- The part of the files that a command looks at. -/
def filesFor : Command → IO FileTree
  | .fixtures path _ _ => do
    match ← read? path with
    | some node => return FileTree.empty.place path node
    | none => return FileTree.empty
  | _ => return FileTree.empty

def settingsFolder : IO String := do
  let home ← IO.getEnv "HOME"
  return FileTree.join (home.getD ".") ".wordmachine"

def settingsFile : IO String := return FileTree.join (← settingsFolder) "config.toml"

def readSettings : IO (Option String) := do
  try
    return some (← IO.FS.readFile (← settingsFile))
  catch _ =>
    return none

def writeSettings (text : String) : IO Unit := do
  IO.FS.createDirAll (← settingsFolder)
  IO.FS.writeFile (← settingsFile) text

end Disk

def usage : String :=
  "Usage: wordmachine [--json] [--log-level FILTER] COMMAND\n\n" ++
  "  run CODE [--step-limit N]\n" ++
  "  fixtures PATH [--filter TEXT] [--verbose]\n" ++
  "  disasm CODE\n" ++
  "  config [--show] [--set-step-limit N] [--set-log-level FILTER]"

/-- A time in seconds with two places. -/
def seconds (milliseconds : Nat) : String :=
  let hundredths := (milliseconds + 5) / 10
  let places := toString (hundredths % 100)
  toString (hundredths / 100) ++ "." ++ (if hundredths % 100 < 10 then "0" else "") ++ places ++ "s"

def perform (invocation : Invocation) : IO UInt32 := do
  let session : Session := ⟨← Disk.filesFor invocation.command, ← Disk.readSettings⟩
  let start ← IO.monoMsNow
  let (response, after) := session.perform invocation
  if after.stored ≠ session.stored then
    after.stored.forM Disk.writeSettings
  let finish ← IO.monoMsNow
  IO.print (response.render (seconds (finish - start)))
  IO.eprint response.complaint
  return response.exit.toUInt32

end WordMachine

open WordMachine in
def main (arguments : List String) : IO UInt32 := do
  match Invocation.ofArguments arguments with
  | .error .help => do
    IO.println usage
    return 0
  | .error .misuse => do
    IO.eprintln usage
    return 2
  | .ok invocation => perform invocation
