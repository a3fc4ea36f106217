import Tickscript.Machine

/-!
# `Tickscript.Machine.Trace`: a run with a line for each tick

A trace shows the machine before each tick: the clock, the counter, the phase, the loaded
instruction and the buffer. A trace is kept up to the tick that failed, that one included.
-/

set_option autoImplicit false

namespace Tickscript.Machine

open Tickscript.Text

/-- How the counter is shown. -/
def counterText : Option Int → String
  | some address => toString address
  | none => "None"

/-- How the loaded instruction is shown. -/
def loadedText : Option Instr → Except Fault String
  | some i => i.render.mapError .render
  | none => .ok "-"

/-- The line for the state before a tick. -/
def traceLine (m : Machine) : Except Fault String :=
  (loadedText m.loaded).map fun shown =>
    "t=" ++ toString m.ticks ++ " pc=" ++ counterText m.counter ++ " phase=" ++ m.phase.label ++
      " ir=" ++ shown ++ " buf=" ++ quote m.environment.buffer ++ "\n"

/-- What a traced run has come to. -/
structure Traced where
  trace : String
  machine : Machine
  fault : Option Fault

/-- At most `count` ticks, with a line in front of each; `trace` holds the lines so far. -/
def traceFor : Nat → String → Machine → Traced
  | 0, trace, m => ⟨trace, m, none⟩
  | count + 1, trace, m =>
    if m.halted then ⟨trace, m, none⟩
    else
      match m.traceLine with
      | .error fault => ⟨trace, m, some fault⟩
      | .ok line =>
        match m.tick with
        | (next, none) => traceFor count (trace ++ line) next
        | (next, some fault) => ⟨trace ++ line, next, some fault⟩

/-- Runs like `run`, with a trace. -/
def runTraced (limit : Int) (m : Machine) : Traced :=
  traceFor (limit - m.ticks).toNat "" m

end Tickscript.Machine
