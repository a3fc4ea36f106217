import Tickscript.Instr
import Tickscript.Statement
import Tickscript.Table

/-!
# `Tickscript.Generator`: from statements to instructions

Code is made in one pass. A conditional and a loop leave a jump out of the block whose target is
not known yet; it waits on the stack of its kind until the block is closed. The two kinds have a
stack each, so blocks of different kinds may cross.

A statement that is refused leaves the code it had already made, and no entry on a stack. So every
operation gives the generator it reached together with the error, if there was one.
-/

set_option autoImplicit false

namespace Tickscript

/-- The operation words for the operators of the language. -/
abbrev Mnemonics := Table String String

/-- The operation words that the machine knows. -/
def Mnemonics.standard : Mnemonics :=
  ⟨[("==", "equals"), ("<", "lessThan"), (">", "greaterThan"), ("<=", "lessThanEq"),
    (">=", "greaterThanEq"), ("+", "add"), ("-", "sub"), ("*", "mul"), ("/", "div"),
    ("^", "pow")]⟩

/-- The operators that compare. Only these can stand in a test. -/
def comparisons : List String := ["==", "<", ">", "<=", ">="]

/-- The operator that reads a property of an object. -/
def sensorOperator : String := "."

/-- The condition that always holds. -/
def always : String := "always"

/-- The variable that keeps the outcome of a loop's test. All loops share it. -/
def loopFlag : String := "__loop_cond"

/-- A jump in the code that waits for the end of its block. -/
structure PendingJump where
  index : Nat
  block : Block
  line : Int
deriving DecidableEq, Repr

/-- Something to tell about a statement that is no error. -/
inductive Notice where
  | ignored (line : Int) (words : List String)
  | patched (index target : Nat) (block : Block) (line : Int)
deriving DecidableEq, Repr

/-- How much a notice matters. -/
inductive Notice.Level where
  | info
  | warning
deriving DecidableEq, Repr

/-- An ignored statement is most likely a mistake; a patched jump is only of interest to a
reader. -/
def Notice.level : Notice → Notice.Level
  | .ignored .. => .warning
  | .patched .. => .info

/-- The words of a notice. -/
def Notice.message : Notice → String
  | .ignored line words =>
    "line " ++ toString line ++ ": statement without assignment ignored: " ++
      " ".intercalate words
  | .patched index target block line =>
    "patched jump @" ++ toString index ++ " -> " ++ toString target ++ " ('" ++ block.opener ++
      "' opened at line " ++ toString line ++ ")"

/-- The code made so far, the jumps that wait, the latest first, and the notices given. -/
structure Generator where
  code : List Instr := []
  conditionals : List PendingJump := []
  loops : List PendingJump := []
  notices : List Notice := []
deriving DecidableEq, Repr

/-- The instruction for `dest = left op right`. -/
def computeInstr (m : Mnemonics) (dest left : String) (op : Token) (right : String) :
    Except CompileError Instr :=
  if op.text = sensorOperator then .ok (.plain .sensor [dest, left, right])
  else
    match m.get? op.text with
    | some mnemonic => .ok (.plain .op [mnemonic, dest, left, right])
    | none => .error (.unsupportedOperator op.text op.line)

/-- The condition word for a comparison. -/
def conditionWord (m : Mnemonics) (op : Token) : Except CompileError String := do
  op.requireOperator
  match m.get? op.text with
  | some mnemonic =>
    if comparisons.contains op.text then return mnemonic
    else throw (.unsupportedOperator op.text op.line)
  | none => throw (.unsupportedOperator op.text op.line)

/-- The instructions of a chain of operators: the first combines `left` and its operand into
`dest`, the others combine `dest` with theirs. The chain ends at the first operator that is not
supported. -/
def chainInstrs (m : Mnemonics) (dest : String) :
    String → List (Token × String) → List Instr × Option CompileError
  | _, [] => ([], none)
  | left, (op, right) :: rest =>
    match computeInstr m dest left op right with
    | .error e => ([], some e)
    | .ok instr =>
      let others := chainInstrs m dest dest rest
      (instr :: others.1, others.2)

/-- The instructions of an assignment. -/
def assignInstrs (m : Mnemonics) (dest first : String) (rest : List (Token × String)) :
    List Instr × Option CompileError :=
  if rest.isEmpty then ([.plain .set [dest, first]], none) else chainInstrs m dest first rest

/-- The instruction for the step of a loop. -/
def stepInstr (m : Mnemonics) (counter : String) : Option Step → Except CompileError Instr
  | some step => computeInstr m step.dest step.left step.op step.right
  | none => .ok (.plain .op ["add", counter, counter, "1"])

/-- The instructions that open a loop at the address `base`: set the counter, jump over the step,
step, test, and the jump out of the loop. The step is skipped on entry. -/
def loopInstrs (m : Mnemonics) (base : Nat) (counter start : String) (test : Test)
    (step : Option Step) : List Instr × Option CompileError :=
  -- The step is at `base + 2`, so the test that the entry jumps to is at `base + 3`.
  let entry : List Instr := [.plain .set [counter, start], .jumpTo (base + 3) [always]]
  match stepInstr m counter step with
  | .error e => (entry, some e)
  | .ok stepping =>
    match conditionWord m test.op with
    | .error e => (entry ++ [stepping], some e)
    | .ok mnemonic =>
      (entry ++ [stepping, .plain .op [mnemonic, loopFlag, test.left, test.right],
        .pendingJump ["equal", loopFlag, "false"]], none)

namespace Generator

/-- Adds instructions to the code. -/
def append (g : Generator) (instrs : List Instr) : Generator :=
  { g with code := g.code ++ instrs }

/-- Adds a notice. -/
def note (g : Generator) (notice : Notice) : Generator :=
  { g with notices := g.notices ++ [notice] }

/-- Sets the target of a waiting jump. -/
def patch (g : Generator) (jump : PendingJump) (target : Nat) : Generator :=
  note
    { g with code := g.code.modify jump.index fun i => { i with target := some (target : Int) } }
    (.patched jump.index target jump.block jump.line)

/-- Makes the code of a conditional: a jump over the next instruction if the test holds, and a
jump to the end of the block. -/
def openConditional (m : Mnemonics) (g : Generator) (line : Int) (test : Test) :
    Generator × Option CompileError :=
  match conditionWord m test.op with
  | .error e => (g, some e)
  | .ok mnemonic =>
    let base := g.code.length
    let grown := g.append
      [.jumpTo (base + 2) [mnemonic, test.left, test.right], .pendingJump [always]]
    ({ grown with conditionals := ⟨base + 1, .conditional, line⟩ :: g.conditionals }, none)

/-- Closes the latest conditional: its jump goes to the next instruction. -/
def closeConditional (g : Generator) (line : Int) : Generator × Option CompileError :=
  match g.conditionals with
  | [] => (g, some (.unmatchedCloser .conditional line))
  | jump :: rest => (patch { g with conditionals := rest } jump g.code.length, none)

/-- Makes the code that opens a loop. -/
def openLoop (m : Mnemonics) (g : Generator) (line : Int) (counter start : String) (test : Test)
    (step : Option Step) : Generator × Option CompileError :=
  match loopInstrs m g.code.length counter start test step with
  | (instrs, some e) => (g.append instrs, some e)
  | (instrs, none) =>
    ({ g.append instrs with loops := ⟨g.code.length + 4, .loop, line⟩ :: g.loops }, none)

/-- Closes the latest loop: its jump goes behind the jump back, which goes to the step. -/
def closeLoop (g : Generator) (line : Int) : Generator × Option CompileError :=
  match g.loops with
  | [] => (g, some (.unmatchedCloser .loop line))
  | jump :: rest =>
    -- The waiting jump is the fifth instruction of the loop, and the step is the third.
    let patched := patch { g with loops := rest } jump (g.code.length + 1)
    (patched.append [.jumpTo ((jump.index : Int) - 2) [always]], none)

/-- Makes the code of a statement. -/
def add (m : Mnemonics) (g : Generator) : Statement → Generator × Option CompileError
  | .ignored line words => (g.note (.ignored line words), none)
  | .assign dest first rest =>
    let made := assignInstrs m dest first rest
    (g.append made.1, made.2)
  | .openConditional line test => g.openConditional m line test
  | .closeConditional line => g.closeConditional line
  | .openLoop line counter start test step => g.openLoop m line counter start test step
  | .closeLoop line => g.closeLoop line
  | .print value device =>
    (g.append [.plain .print [value], .plain .printflush [device]], none)

/-- Reads the tokens of a statement and makes its code. -/
def addTokens (m : Mnemonics) (g : Generator) (tokens : List Token) :
    Generator × Option CompileError :=
  match Statement.ofTokens tokens with
  | .ok statement => g.add m statement
  | .error e => (g, some e)

/-- Makes the code of statements one after the other, up to the first error. -/
def addAll (m : Mnemonics) (g : Generator) : List (List Token) → Generator × Option CompileError
  | [] => (g, none)
  | tokens :: rest =>
    match g.addTokens m tokens with
    | (reached, none) => reached.addAll m rest
    | (reached, some e) => (reached, some e)

/-- The waiting jump that comes first in the code. -/
def earliest? : List PendingJump → Option PendingJump
  | [] => none
  | jump :: rest =>
    match earliest? rest with
    | some other => if other.index < jump.index then some other else some jump
    | none => some jump

/-- Ends a program. A block that is still open is an error, and the one opened first is
reported. -/
def finish (g : Generator) : Generator × Option CompileError :=
  -- Each stack has its latest jump first, but the two are not in order with each other.
  match earliest? (g.conditionals ++ g.loops) with
  | some jump => (g, some (.unclosedBlock jump.block jump.line))
  | none => (g.append [.plain .halt []], none)

/-- Forgets code and waiting jumps. -/
def reset (g : Generator) : Generator :=
  { notices := g.notices }

/-- Makes the code of a whole program. -/
def generate (m : Mnemonics) (g : Generator) (statements : List (List Token)) :
    Generator × Option CompileError :=
  match g.reset.addAll m statements with
  | (reached, none) => reached.finish
  | (reached, some e) => (reached, some e)

end Generator

end Tickscript
