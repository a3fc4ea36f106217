import Tickscript.Tool.Golden

/-!
# `Tickscript.Main`: the command line

The tools are functions on a tree of files. This module loads the files that a command line may
need, runs the tool, prints what it printed and writes what it wrote. It decides nothing else.
-/

set_option autoImplicit false

namespace Tickscript

/-- The paths that a command line names. -/
def namedPaths (i : Interface) (words : List String) : List PathName :=
  match i.parse words with
  | .ok args => (args.operands ++ args.settings.map (·.2)).filterMap fun given =>
    given.map .ofText
  | .error _ => []

/-- The files that the golden tool reads or writes. -/
def goldenPaths (root : String) (words : List String) : List PathName :=
  match Tool.Golden.goldenInterface.parse words with
  | .ok args =>
    let folder := Location.ofPath (((args.value? "out-dir").join).getD "golden")
    let locations := Tool.Golden.allCases.flatMap fun c =>
      c.source :: c.schedule.toList ++
        ["program.mls", "program.mlog", "program.lst", "schedule.txt", "out.txt", "meta.json"].map
          (folder ++ [c.name, ·])
    locations.map (·.named root)
  | .error _ => []

/-- Adds what is at a location to a tree: a file with its bytes, or a folder. -/
def load (tree : FileTree) (location : Location) : IO FileTree := do
  let path := if location.isEmpty then "." else location.toPath
  try
    let bytes ← IO.FS.readBinFile path
    return { tree with files := tree.files.set location bytes }
  catch _ =>
    try
      let _ ← IO.FS.Handle.mk path .read
      return { tree with folders := location :: tree.folders }
    catch _ => return tree

/-- Loads all that paths lead through. -/
def loadAll (paths : List PathName) : IO FileTree := do
  let mut tree : FileTree := {}
  for location in (paths.flatMap PathName.visited).eraseDups do
    tree ← load tree location
  return tree

/-- Makes the folders and writes the files that a tool has changed. -/
def store (outcome : Outcome) (earlier : FileTree) : IO Unit := do
  for location in outcome.workspace.tree.folders do
    unless earlier.isFolder location do IO.FS.createDirAll location.toPath
  for (location, bytes) in outcome.workspace.tree.changedSince earlier do
    IO.FS.writeBinFile location.toPath bytes

/-- The exit code of a tool. -/
def exitCode : Option Stop → Nat
  | none => 0
  | some (.exit code) => code
  | some (.failure _) => 1

/-- What the command line looks like. -/
def usage : String :=
  "usage: tickscript compile SOURCE PROGRAM [--listing FILE] [--tokens] [-v]\n" ++
  "       tickscript run PROGRAM [--schedule FILE] [--ticks N] [--trace] [--trace-file FILE]" ++
  " [-v]\n" ++
  "       tickscript golden [--out-dir DIR] [--only NAME] [--ticks N] [--verify]" ++
  " [--check-listing] [--fail-fast]"

/-- Runs a tool on the files that it may need. -/
def perform (tool : Session Unit) (paths : List PathName) : IO UInt32 := do
  let tree ← loadAll paths
  let outcome := tool.outcome tree
  store outcome tree
  (← IO.getStdout).putStr outcome.workspace.stdout
  (← IO.getStderr).putStr outcome.workspace.stderr
  match outcome.stop with
  | some (.failure problem) => IO.eprintln problem.message
  | some (.exit 0) => IO.println usage
  | some (.exit 2) => IO.eprintln usage
  | _ => pure ()
  return UInt32.ofNat (exitCode outcome.stop)

end Tickscript

open Tickscript in
/-- The first word chooses the tool, the others are its command line. -/
def main (words : List String) : IO UInt32 := do
  match words with
  | "compile" :: rest => perform (Tool.compile rest) (namedPaths Tool.compileInterface rest)
  | "run" :: rest => perform (Tool.run rest) (namedPaths Tool.runInterface rest)
  | "golden" :: rest =>
    let root ← IO.currentDir
    perform (Tool.Golden.golden root.toString rest) (goldenPaths root.toString rest)
  | _ =>
    IO.eprintln usage
    return 2
