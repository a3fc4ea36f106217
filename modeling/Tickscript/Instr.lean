import Tickscript.Numeral.Integer

/-!
# `Tickscript.Instr`: instructions of the jump code

An instruction is an operation word with arguments, all of them texts. A jump also has a target,
which stays unset until the block it belongs to is closed. Nothing here says that an instruction
has the arguments its operation needs: the machine finds out when it executes it.
-/

set_option autoImplicit false

namespace Tickscript

open Tickscript.Numeral

/-- The operation of an instruction; `other` is a word that the machine does not know. -/
inductive Opcode where
  | set
  | op
  | sensor
  | jump
  | print
  | printflush
  | halt
  | other (word : String)
deriving DecidableEq, Repr

/-- The word for an operation. -/
def Opcode.word : Opcode → String
  | .set => "set"
  | .op => "op"
  | .sensor => "sensor"
  | .jump => "jump"
  | .print => "print"
  | .printflush => "printflush"
  | .halt => "end"
  | .other word => word

/-- The operations that the machine knows. -/
def Opcode.known : List Opcode :=
  [.set, .op, .sensor, .jump, .print, .printflush, .halt]

/-- The known operation that a word stands for. -/
def Opcode.ofWord? (word : String) : Option Opcode :=
  known.find? (·.word = word)

/-- An instruction. Only jumps use the target, and `none` is a target that is not yet set. -/
structure Instr where
  opcode : Opcode
  args : List String := []
  target : Option Int := none
deriving DecidableEq, Repr

/-- Why an instruction has no text. -/
inductive RenderFault where
  | unresolvedJump (args : List String)
  | target (fault : IntegerFault)
deriving DecidableEq, Repr

/-- The wording of a fault. -/
def RenderFault.message : RenderFault → String
  | .unresolvedJump args => "unresolved jump target: jump ? " ++ " ".intercalate args
  | .target fault => fault.message

/-- The text of an instruction: its words, with the target of a jump after the first. -/
def Instr.render (i : Instr) : Except RenderFault String :=
  if i.opcode = .jump then
    match i.target with
    | none => .error (.unresolvedJump i.args)
    | some target =>
      match writeInteger target with
      | .ok text => .ok (" ".intercalate (i.opcode.word :: text :: i.args))
      | .error fault => .error (.target fault)
  else .ok (" ".intercalate (i.opcode.word :: i.args))

/-- An instruction without a target. -/
def Instr.plain (opcode : Opcode) (args : List String) : Instr :=
  { opcode, args }

/-- A jump to a known place. -/
def Instr.jumpTo (target : Int) (args : List String) : Instr :=
  { opcode := .jump, args, target := some target }

/-- A jump whose target is set later. -/
def Instr.pendingJump (args : List String) : Instr :=
  { opcode := .jump, args }

end Tickscript
