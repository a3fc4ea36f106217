import Tickscript.Instr
import Tickscript.Value.Arithmetic

/-!
# `Tickscript.Fault`: what stops the machine

The machine accepts any list of instructions and finds out what is wrong with one when it executes
it.
-/

set_option autoImplicit false

namespace Tickscript

open Tickscript.Numeral

/-- Why a tick failed. -/
inductive Fault where
  /-- An instruction has fewer arguments than it uses. -/
  | missingArgument
  /-- An instruction that takes a fixed number of arguments has another number of them. -/
  | argumentCount (expected got : Nat)
  | unknownOpcode (word : String)
  | unknownOperation (word : String)
  | unknownCondition (word : String)
  /-- A jump without a target was taken, so there is no next address. -/
  | unsetCounter
  | arithmetic (fault : ArithmeticFault)
  | numeral (fault : IntegerFault)
  /-- The instruction at hand has no text for the trace. -/
  | render (fault : RenderFault)
deriving DecidableEq, Repr

/-- The wording of a fault. -/
def Fault.message : Fault → String
  | .missingArgument => "tuple index out of range"
  | .argumentCount expected got =>
    if got < expected then
      "not enough values to unpack (expected " ++ toString expected ++ ", got " ++
      toString got ++ ")"
    else "too many values to unpack (expected " ++ toString expected ++ ")"
  | .unknownOpcode word => "unknown or unhandled opcode: " ++ word
  | .unknownOperation word => "unknown op mnemonic: " ++ word
  | .unknownCondition word => "unknown jump condition: " ++ word
  | .unsetCounter => "'<=' not supported between instances of 'int' and 'NoneType'"
  | .arithmetic fault => fault.message
  | .numeral fault => fault.message
  | .render fault => fault.message

end Tickscript
