import Tickscript.Diff.Hunk
import Tickscript.Tool.Compile
import Tickscript.Tool.Run

/-!
# `Tickscript.Tool.Golden`: golden artifacts

For a fixed set of example programs the tool writes what compiling and running them gives, or
compares it with what was written before. Artifacts of a case are in a folder of its own: source,
schedule, program, listing, outputs and a short description.

Files are named by their full path in messages, so the path of the project folder, `root`, is an
argument throughout.
-/

set_option autoImplicit false

namespace Tickscript.Tool.Golden

open Tickscript.Session Tickscript.Text

/-- The tool has options only. -/
def goldenInterface : Interface where
  operands := 0
  options :=
    [helpOption, ⟨"out-dir", ["--out-dir"], .text⟩, ⟨"only", ["--only"], .text⟩,
     ⟨"ticks", ["--ticks"], .integer⟩, ⟨"verify", ["--verify"], .flag⟩,
     ⟨"check-listing", ["--check-listing"], .flag⟩, ⟨"fail-fast", ["--fail-fast"], .flag⟩]

/-- An example program. -/
structure Case where
  name : String
  source : Location
  schedule : Option Location := none
  ticks : Int := 2000
deriving DecidableEq, Repr

/-- The example programs. -/
def allCases : List Case :=
  [{ name := "hello_world", source := ["examples", "hello_world.mls"] },
   { name := "sum_loop", source := ["examples", "sum_loop.mls"] },
   { name := "sensor_alarm", source := ["examples", "sensor_alarm.mls"],
     schedule := some ["examples", "sensor_alarm.input"] },
   { name := "arithmetic", source := ["examples", "arithmetic.mls"] },
   { name := "countdown", source := ["examples", "countdown.mls"] }]

/-- The text of the file at a location. -/
def readTextAt (root : String) (location : Location) : Session String :=
  readText (location.named root)

/-- Writes the file at a location. -/
def writeTextAt (root : String) (location : Location) (text : String) : Session Unit :=
  writeText (location.named root) text

/-- Whether there is anything at a location. -/
def holdsAt (root : String) (location : Location) : Session Bool := do
  orFail .file ((← get).tree.holds (location.named root))

/-- Makes the folder at a location and those around it that are missing. -/
def makeFolders (root : String) (location : Location) : Session Unit := do
  let w ← get
  match w.tree.makeFolder (location.named root) with
  | .ok tree => set { w with tree }
  | .error fault =>
    -- Only what is missing is made; a file in the way is a fault as it stands.
    if h : fault.cause = .missing ∧ location ≠ [] then
      have : location.dropLast.length < location.length := by
        have := List.length_pos_iff.mpr h.2
        simp only [List.length_dropLast]
        omega
      makeFolders root location.dropLast
      let w ← get
      let tree ← orFail .file (w.tree.makeFolder (location.named root))
      set { w with tree }
    else throw (.failure (.file fault))
termination_by location.length

/-- The program text and the listing of a source. -/
structure Compiled where
  program : String
  listing : String

/-- Compiles the source file at a location. -/
def compileAt (root : String) (source : Location) : Session Compiled := do
  let compiled := compileCode .standard .standard (← readTextAt root source)
  showNotices false compiled.notices
  let code ← orFail CompileFault.toFailure compiled.result
  let program ← orFail .render (encode code)
  let listing ← orFail .render (Tickscript.listing code)
  return { program, listing }

/-- The sensor events of the schedule file at a location. -/
def scheduleAt (root : String) (location : Location) : Session (List SensorEvent) :=
  readSchedule (location.named root)

/-- The formatted outputs of the program file at a location. -/
def outputsAt (root : String) (program : Location) (schedule : List SensorEvent) (ticks : Int) :
    Session String := do
  let outputs ← runFile (program.named root) schedule ticks .nowhere
  return outputs.format

/-- A text between double quotes. -/
def inQuotes (text : String) : String :=
  "\"" ++ text ++ "\""

/-- The description of a case, as a file that other tools can read. -/
def description (c : Case) (ticks : Int) : String :=
  let path := fun (location : Location) => inQuotes ("/".intercalate location)
  "\x7b\n  \"name\": " ++ inQuotes c.name ++ ",\n  \"src\": " ++ path c.source ++
    ",\n  \"ticks\": " ++ toString ticks ++ ",\n  \"schedule\": " ++
    (match c.schedule with
    | some location => path location
    | none => "null") ++ "\n\x7d\n"

/-- Copies the schedule of a case into its folder, if there is such a file. -/
def copySchedule (root : String) (folder : Location) : Option Location → Session Unit
  | none => pure ()
  | some location => do
    if ← holdsAt root location then
      writeTextAt root (folder ++ ["schedule.txt"]) (← readTextAt root location)

/-- The events that a case is run with. -/
def caseEvents (root : String) : Option Location → Session (List SensorEvent)
  | none => pure []
  | some location => scheduleAt root location

/-- Writes the artifacts of a case. -/
def generateCase (root : String) (folder : Location) (c : Case) (ticks : Int) : Session Unit := do
  makeFolders root folder
  writeTextAt root (folder ++ ["program.mls"]) (← readTextAt root c.source)
  copySchedule root folder c.schedule
  let compiled ← compileAt root c.source
  writeTextAt root (folder ++ ["program.mlog"]) compiled.program
  writeTextAt root (folder ++ ["program.lst"]) compiled.listing
  let events ← caseEvents root c.schedule
  -- The program is run from the file that was just written, not from the code in hand.
  let outputs ← outputsAt root (folder ++ ["program.mlog"]) events ticks
  writeTextAt root (folder ++ ["out.txt"]) outputs
  writeTextAt root (folder ++ ["meta.json"]) (description c ticks)

/-- The lines that show how an artifact differs from what was expected. -/
def differenceLines (name file expected actual : String) : List String :=
  ("[mismatch][" ++ name ++ "] " ++ file ++ " differs") ::
    Diff.unified ("golden/" ++ file) ("fresh/" ++ file) (linesOf expected) (linesOf actual)

/-- Shows a difference. -/
def showDifference (name file expected actual : String) : Session Unit :=
  printOut (String.join ((differenceLines name file expected actual).map (· ++ "\n")))

/-- Compares an artifact with the file at a location; an absent file counts as empty. -/
def checkArtifact (root : String) (folder : Location) (name file actual : String) :
    Session Bool := do
  let location := folder ++ [file]
  let expected ← if ← holdsAt root location then readTextAt root location else pure ""
  if actual = expected then return true
  else
    showDifference name file expected actual
    return false

/-- The events of the schedule in a case's folder, if there is one. -/
def storedEvents (root : String) (folder : Location) : Session (List SensorEvent) := do
  let location := folder ++ ["schedule.txt"]
  if ← holdsAt root location then scheduleAt root location else return []

/-- Compares a case with its artifacts. The program that is run is the stored one. -/
def verifyCase (root : String) (folder : Location) (c : Case) (ticks : Int) (withListing : Bool) :
    Session Bool := do
  let compiled ← compileAt root c.source
  let programOk ← checkArtifact root folder c.name "program.mlog" compiled.program
  let listingOk ←
    if withListing then checkArtifact root folder c.name "program.lst" compiled.listing
    else pure true
  let events ← storedEvents root folder
  let outputs ← outputsAt root (folder ++ ["program.mlog"]) events ticks
  let outputsOk ← checkArtifact root folder c.name "out.txt" outputs
  return programOk && listingOk && outputsOk

/-- What the options of the tool ask for. Ticks that were asked for hold for every case; they may
be absent, which is noticed at the first case. -/
structure Request where
  root : String
  folder : Location
  ticks : Option (Option Int)
  withListing : Bool
  failFast : Bool

/-- The ticks that a case may take. -/
def Request.ticksFor (r : Request) (c : Case) : Session Int :=
  present .ticks (r.ticks.getD (some c.ticks))

/-- Writes the artifacts of cases. -/
def generateAll (r : Request) : List Case → Session Unit
  | [] => pure ()
  | c :: rest => do
    let folder := r.folder ++ [c.name]
    let ticks ← r.ticksFor c
    printOut ("[golden] Generating " ++ c.name ++ " -> " ++ folder.fullPath r.root ++ "\n")
    generateCase r.root folder c ticks
    generateAll r rest

/-- Compares cases; `good` says whether all before them agreed. -/
def verifyAll (r : Request) (good : Bool) : List Case → Session Bool
  | [] => pure good
  | c :: rest => do
    let ticks ← r.ticksFor c
    printOut ("[verify] " ++ c.name ++ "\n")
    let same ← verifyCase r.root (r.folder ++ [c.name]) c ticks r.withListing
    if !same && r.failFast then throw (.exit 1)
    verifyAll r (good && same) rest

/-- The folder of the artifacts. -/
def folderOf (args : Arguments) : Session Location := do
  let path := PathName.ofText (← present .folder ((args.value? "out-dir").getD (some "golden")))
  if path.hasNull then throw (.failure (.file ⟨.nullCharacter, path.text⟩))
  return path.target

/-- The cases that were asked for, all of them if none was named. -/
def selectCases (only : List Given) : Session (List Case) := do
  let names ← only.mapM (present .names)
  return if names.isEmpty then allCases else allCases.filter (names.contains ·.name)

/-- The tool. -/
def golden (root : String) (words : List String) : Session Unit := do
  let args ← arguments goldenInterface words
  let request : Request :=
    { root
      folder := ← folderOf args
      ticks := args.integer? "ticks"
      withListing := args.has "check-listing"
      failFast := args.has "fail-fast" }
  let cases ← selectCases (args.values "only")
  if args.has "verify" then
    if ← verifyAll request true cases then printOut "[verify] all tests OK\n"
    else throw (.exit 1)
  else generateAll request cases

end Tickscript.Tool.Golden
