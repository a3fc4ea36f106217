import Tickscript.Environment
import Tickscript.Value.Compute

/-!
# `Tickscript.Machine`: the tick-driven processor

An instruction takes three ticks: it is fetched, the counter moves on, it is executed. At the
start of each tick the sensor events of that tick happen. Leaving the program ends the run, like
the last instruction of a program does.

A tick that fails changes nothing but the sensors. So `advance` gives the next machine only if the
tick succeeds, and `tick` gives the fault beside a machine that can be asked again.
-/

set_option autoImplicit false

namespace Tickscript

open Tickscript.Numeral

/-- What an instruction asks for, once its arguments are known to be there. -/
inductive Action where
  | set (dest source : String)
  | compute (operation dest left right : String)
  | sense (dest object property : String)
  | jump (condition : String) (left right : Option String) (target : Option Int)
  | print (source : String)
  | flush (device : String)
  | halt
deriving DecidableEq, Repr

/-- The action of an instruction. Operations and sensor reads take an exact number of arguments;
the others ignore what they do not use. -/
def Instr.action (i : Instr) : Except Fault Action :=
  match i.opcode, i.args with
  | .set, dest :: source :: _ => .ok (.set dest source)
  | .set, _ => .error .missingArgument
  | .op, [operation, dest, left, right] => .ok (.compute operation dest left right)
  | .op, args => .error (.argumentCount 4 args.length)
  | .sensor, [dest, object, property] => .ok (.sense dest object property)
  | .sensor, args => .error (.argumentCount 3 args.length)
  | .jump, condition :: rest => .ok (.jump condition rest[0]? rest[1]? i.target)
  | .jump, [] => .error .missingArgument
  | .print, source :: _ => .ok (.print source)
  | .print, [] => .error .missingArgument
  | .printflush, device :: _ => .ok (.flush device)
  | .printflush, [] => .error .missingArgument
  | .halt, _ => .ok .halt
  | .other word, _ => .error (.unknownOpcode word)

/-- The three ticks of an instruction. -/
inductive Phase where
  | fetch
  | latch
  | execute
deriving DecidableEq, Repr

/-- How a phase is called in a trace. -/
def Phase.label : Phase → String
  | .fetch => "FETCH_IR"
  | .latch => "LATCH_PC"
  | .execute => "EXEC"

/-- The processor with its program, the schedule of its sensors and its environment. `counter` is
the address of the next instruction; it is unset after a jump without a target. `loaded` is the
instruction that was fetched last, and `lastAddress` its address. -/
structure Machine where
  program : Array Instr
  schedule : List SensorEvent := []
  environment : Environment := {}
  counter : Option Int := some 0
  loaded : Option Instr := none
  lastAddress : Nat := 0
  phase : Phase := .fetch
  ticks : Nat := 0
  executed : Nat := 0
  halted : Bool := false
deriving DecidableEq, Repr

namespace Machine

/-- A machine at the start of a program. -/
def start (program : List Instr) (schedule : List SensorEvent) : Machine :=
  { program := program.toArray, schedule }

/-- The value of an argument that may be absent. -/
def readOptional (m : Machine) : Option String → Except Fault Value
  | some arg => m.environment.read arg
  | none => .ok .null

/-- Performs an action. -/
def perform (m : Machine) : Action → Except Fault Machine
  | .set dest source => do
    let value ← m.environment.read source
    return { m with environment := m.environment.write dest value }
  | .compute operation dest left right => do
    let a ← m.environment.read left
    let b ← m.environment.read right
    let value ← Value.compute operation a b
    return { m with environment := m.environment.write dest value }
  | .sense dest object property =>
    .ok { m with environment :=
      m.environment.write dest (m.environment.readings.read object property) }
  | .jump condition left right target => do
    -- Both sides are read even if the condition looks at neither.
    let a ← m.readOptional left
    let b ← m.readOptional right
    if ← Value.compare condition a b then return { m with counter := target } else return m
  | .print source => do
    let value ← m.environment.read source
    return { m with environment := ← m.environment.print value }
  | .flush device => .ok { m with environment := m.environment.flush device }
  | .halt => .ok { m with halted := true }

/-- Executes an instruction. -/
def execute (m : Machine) (i : Instr) : Except Fault Machine :=
  i.action.bind m.perform

/-- Fetches the instruction at the counter, or halts if the counter has left the program. -/
def fetch (m : Machine) : Except Fault Machine :=
  match m.counter with
  | none => .error .unsetCounter
  | some address =>
    -- `toNat` takes a negative address to the first instruction, so it is caught here.
    if address < 0 then .ok { m with halted := true }
    else
      match m.program[address.toNat]? with
      | none => .ok { m with halted := true }
      | some i =>
        .ok { m with loaded := some i, lastAddress := address.toNat, phase := .latch }

/-- Moves the counter on. -/
def latch (m : Machine) : Machine :=
  { m with counter := m.counter.map (· + 1), phase := .execute }

/-- Executes the loaded instruction. -/
def finishInstr (m : Machine) : Except Fault Machine :=
  match m.loaded with
  | none => .ok { m with executed := m.executed + 1, phase := .fetch }
  | some i => (m.execute i).map fun m => { m with executed := m.executed + 1, phase := .fetch }

/-- The sensor events of the current tick happen. -/
def sense (m : Machine) : Machine :=
  { m with environment := { m.environment with
      readings := m.environment.readings.advance m.schedule m.ticks } }

/-- What the current phase does. -/
def phaseStep (m : Machine) : Except Fault Machine :=
  match m.phase with
  | .fetch => m.fetch
  | .latch => .ok m.latch
  | .execute => m.finishInstr

/-- Does the current phase and counts the tick. -/
def advance (m : Machine) : Except Fault Machine :=
  m.phaseStep.map fun next => { next with ticks := next.ticks + 1 }

/-- One tick. A halted machine does nothing; after a fault only the sensors have changed. -/
def tick (m : Machine) : Machine × Option Fault :=
  if m.halted then (m, none)
  else
    match m.sense.advance with
    | .ok next => (next, none)
    | .error fault => (m.sense, some fault)

/-- At most `count` ticks. The run ends early if the machine halts or a tick fails. -/
def runFor : Nat → Machine → Machine × Option Fault
  | 0, m => (m, none)
  | count + 1, m =>
    if m.halted then (m, none)
    else
      match m.tick with
      | (next, none) => runFor count next
      | (next, some fault) => (next, some fault)

/-- Runs until the machine halts, a tick fails or the clock has reached `limit`. A tick that
succeeds moves the clock by one, so the number of ticks left bounds the run. -/
def run (limit : Int) (m : Machine) : Machine × Option Fault :=
  runFor (limit - m.ticks).toNat m

end Machine

end Tickscript
