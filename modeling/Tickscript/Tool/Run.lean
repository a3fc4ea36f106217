import Tickscript.Machine.Trace
import Tickscript.Session

/-!
# `Tickscript.Tool.Run`: the machine as a tool

Runs a program file, with the sensor events of a schedule file, and prints the messages of its
devices. A trace goes to the first channel or to a file; it is kept when the run fails.
-/

set_option autoImplicit false

namespace Tickscript.Tool

open Tickscript.Session Tickscript.Text

/-- The operand is the program file. -/
def runInterface : Interface where
  operands := 1
  options :=
    [helpOption, ⟨"schedule", ["--schedule"], .text⟩, ⟨"ticks", ["--ticks"], .integer⟩,
     ⟨"trace", ["--trace"], .flag⟩, ⟨"trace-file", ["--trace-file"], .text⟩, verboseOption]

/-- How many ticks a run may take if nothing else is said. -/
def defaultTicks : Int := 100000

/-- Where the trace of a run goes. -/
inductive TraceSink where
  | nowhere
  | stdout
  | file (path : PathName)
deriving DecidableEq, Repr

/-- Empties the file that a trace goes to. -/
def TraceSink.prepare : TraceSink → Session Unit
  | .file path => writeText path ""
  | _ => pure ()

/-- Ends a run with its outputs or its fault. -/
def conclude (m : Machine) : Option Fault → Session Outputs
  | none => pure m.environment.outputs
  | some fault => throw (.failure (.machine fault))

/-- Runs a machine and puts its trace where it is wanted. -/
def runMachine (m : Machine) (limit : Int) : TraceSink → Session Outputs
  | .nowhere =>
    let done := m.run limit
    conclude done.1 done.2
  | .stdout => do
    let done := m.runTraced limit
    printOut done.trace
    conclude done.machine done.fault
  | .file path => do
    let done := m.runTraced limit
    writeText path done.trace
    conclude done.machine done.fault

/-- The machine for the program that a file holds. -/
def loadMachine (path : PathName) (schedule : List SensorEvent) : Session Machine := do
  let code ← orFail .decode (decode (← readText path))
  return Machine.start code schedule

/-- Runs a program file. -/
def runFile (path : PathName) (schedule : List SensorEvent) (limit : Int) (sink : TraceSink) :
    Session Outputs := do
  let m ← loadMachine path schedule
  sink.prepare
  runMachine m limit sink

/-- Reads a schedule file. -/
def readSchedule (path : PathName) : Session (List SensorEvent) := do
  orFail .schedule (Schedule.ofBytes (← readBytes path))

/-- The events of the schedule that was asked for, if one was. -/
def scheduleOf (args : Arguments) : Session (List SensorEvent) := do
  match args.path? "schedule" with
  | none => return []
  | some path =>
    let events ← readSchedule (.ofText path)
    if args.has "verbose" then
      printErr ("INFO:machine_cli:loaded " ++ toString events.length ++ " sensor events from " ++
        path ++ "\n")
    return events

/-- Where the trace goes. A file alone asks for no trace. -/
def traceOf (args : Arguments) : TraceSink :=
  if args.has "trace" then
    match args.path? "trace-file" with
    | some path => .file (.ofText path)
    | none => .stdout
  else .nowhere

/-- The tool. The limit is looked at last, when everything else is ready. -/
def run (words : List String) : Session Unit := do
  let args ← arguments runInterface words
  let schedule ← scheduleOf args
  let m ← loadMachine (.ofText (← operand args 0)) schedule
  (traceOf args).prepare
  let limit ← present .limit ((args.integer? "ticks").getD (some defaultTicks))
  let outputs ← runMachine m limit (traceOf args)
  printOut outputs.format

end Tickscript.Tool
