import Tickscript.Environment
import Tickscript.Numeral.Decimal
import Tickscript.Text.Lines
import Tickscript.Text.Utf8
import Tickscript.Value.Operand

/-!
# `Tickscript.Schedule`: sensor events as lines of a file

An event is a line `tick object property value`. Blank lines and lines that start with `#` are
skipped. The value takes the rest of the line: a literal between quotes, an integer in any radix,
or a floating point number.
-/

set_option autoImplicit false

namespace Tickscript

open Tickscript.Numeral Tickscript.Text

/-- Why a file is not a schedule. -/
inductive ScheduleFault where
  | badLine (number : Nat) (line : String)
  | tick (fault : IntegerFault)
  | value (text : String)
  | encoding (fault : Utf8.Fault)
deriving DecidableEq, Repr

/-- The wording of a fault. -/
def ScheduleFault.message : ScheduleFault → String
  | .badLine number line => "bad schedule line " ++ toString number ++ ": " ++ quote line
  | .tick fault => fault.message
  | .value text => "could not convert string to float: " ++ quote text
  | .encoding fault => fault.message

/-- The value that a text stands for. -/
def Value.ofText (text : String) : Except ScheduleFault Value :=
  match literalBody? text with
  | some body => .ok (.text body)
  | none =>
    match readLiteral? text with
    | some n => .ok (.int n)
    | none =>
      match readFloat? text with
      | some x => .ok (.float x)
      | none => .error (.value text)

/-- The event of a line, `none` if the line has no event. -/
def SensorEvent.ofLine (number : Nat) (line : List Char) :
    Except ScheduleFault (Option SensorEvent) :=
  let content := trim line
  if content.isEmpty || content.head? = some '#' then .ok none
  else
    match (fields 3 content).map String.ofList with
    | [tick, object, property, value] => do
      let tick ← (readInteger tick).mapError .tick
      let value ← Value.ofText value
      return some { tick, object, property, value }
    | _ => .error (.badLine number (String.ofList content))

/-- The events of lines that are numbered from `number` on. -/
def Schedule.ofLines (number : Nat) : List (List Char) → Except ScheduleFault (List SensorEvent)
  | [] => .ok []
  | line :: rest => do
    let event ← SensorEvent.ofLine number line
    let events ← ofLines (number + 1) rest
    return event.toList ++ events

/-- The events of a schedule text. -/
def Schedule.parse (text : String) : Except ScheduleFault (List SensorEvent) :=
  ofLines 1 (fileLines (normalizeNewlines text.toList))

/-- The lines of a text that are known to be complete: a last line without a newline is not, and a
carriage return at the very end may still be half of a newline. -/
def Schedule.completeLines (text : String) : List (List Char) :=
  let cs := text.toList
  let settled := if cs.getLast? = some '\r' then cs.dropLast else cs
  let normalized := normalizeNewlines settled
  let lines := fileLines normalized
  if normalized.getLast? = some '\n' then lines else lines.dropLast

/-- The events of a schedule file. A file that is not UTF-8 is read as far as its blocks allow, so
an error in an earlier line is reported first. -/
def Schedule.ofBytes (bytes : ByteArray) : Except ScheduleFault (List SensorEvent) :=
  match Utf8.decode bytes with
  | .ok text => parse text
  | .error fault => do
    let (readable, seen) := fault.inBlocks bytes
    let before := (String.fromUTF8? (bytes.extract 0 readable)).getD ""
    let _ ← ofLines 1 (completeLines before)
    throw (.encoding seen)

end Tickscript
