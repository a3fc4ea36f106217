import Tickscript.Fault
import Tickscript.Table
import Tickscript.Value.Operand

/-!
# `Tickscript.Environment`: what instructions work on

Instructions read and write variables, gather a text and deliver it to a device, and read sensors.

A sensor is a property of an object. Its value changes by events, each at a tick; events of the
same tick happen in the order of the schedule. A sensor that no event has set yet reads as
nothing.

A device comes into being with its first message. Devices are listed in that order, each with its
messages in the order of delivery.
-/

set_option autoImplicit false

namespace Tickscript

open Tickscript.Numeral

/-! ### Sensors -/

/-- A sensor gets a value at a tick. -/
structure SensorEvent where
  tick : Int
  object : String
  property : String
  value : Value
deriving DecidableEq, Repr

/-- The current values of the sensors, by object and property. -/
abbrev Readings := Table (String × String) Value

/-- One event happens. -/
def Readings.record (r : Readings) (e : SensorEvent) : Readings :=
  r.set (e.object, e.property) e.value

/-- The events of a schedule at a tick happen. -/
def Readings.advance (schedule : List SensorEvent) (tick : Int) (r : Readings) : Readings :=
  (schedule.filter (·.tick = tick)).foldl Readings.record r

/-- The value of a sensor. -/
def Readings.read (r : Readings) (object property : String) : Value :=
  (r.get? (object, property)).getD .null

/-! ### Devices -/

/-- The messages of each device. -/
abbrev Outputs := Table String (List String)

/-- Delivers a message to a device. -/
def Outputs.deliver (o : Outputs) (device message : String) : Outputs :=
  o.set device ((o.get? device).getD [] ++ [message])

/-- All messages, one a line with its device in front. -/
def Outputs.format (o : Outputs) : String :=
  String.join (o.entries.flatMap fun entry => entry.2.map fun message =>
    entry.1 ++ "| " ++ message ++ "\n")

/-! ### Variables and the buffer -/

/-- What instructions work on: variables, the text that waits to be delivered, sensors and
devices. -/
structure Environment where
  store : Table String Value := {}
  buffer : String := ""
  readings : Readings := {}
  outputs : Outputs := {}
deriving DecidableEq, Repr

namespace Environment

/-- The value of an argument. -/
def read (e : Environment) (arg : String) : Except Fault Value :=
  (Value.ofOperand e.store arg).mapError .numeral

/-- Writes a variable. Any name can be written, also that of a constant. -/
def write (e : Environment) (name : String) (value : Value) : Environment :=
  { e with store := e.store.set name value }

/-- Adds the text of a value to the buffer. -/
def print (e : Environment) (value : Value) : Except Fault Environment :=
  match value.format with
  | .ok text => .ok { e with buffer := e.buffer ++ text }
  | .error fault => .error (.numeral fault)

/-- Delivers the buffer to a device and empties it. -/
def flush (e : Environment) (device : String) : Environment :=
  { e with buffer := "", outputs := e.outputs.deliver device e.buffer }

end Environment

end Tickscript
