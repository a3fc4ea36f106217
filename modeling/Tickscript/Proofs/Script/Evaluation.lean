import Tickscript.Machine
import Tickscript.Proofs.Generator.Translation

/-!
# `Tickscript.Proofs.Script.Evaluation`: what a program means without jumps

A `Script` is a program in which blocks are nested: the body of a conditional or a loop is a
script again, so there are no openers and closers to be paired. `statements` writes it as the list
of statements that a source text gives.

`evaluate` runs a script directly. It knows variables and messages but neither addresses nor
ticks, and it has no variable for the outcome of a loop's test. Sensors do not change while it
runs. Each loop is given a number of rounds, since a program may go on for ever; `unfinished`
means that a loop used them up, and says nothing about more rounds.
-/

set_option autoImplicit false

namespace Tickscript

/-- A program with nested blocks. The lines only serve to write it as statements. -/
inductive Script where
  | done
  | ignored (line : Int) (words : List String) (rest : Script)
  | assign (dest first : String) (chain : List (Token × String)) (rest : Script)
  | print (value device : String) (rest : Script)
  | conditional (line : Int) (test : Test) (body : Script) (closing : Int) (rest : Script)
  | loop (line : Int) (counter start : String) (test : Test) (step : Option Step) (body : Script)
      (closing : Int) (rest : Script)
deriving DecidableEq, Repr

namespace Script

/-- The statements of a script, with an opener and a closer around the body of each block. -/
def statements : Script → List Statement
  | .done => []
  | .ignored line words rest => .ignored line words :: rest.statements
  | .assign dest first chain rest => .assign dest first chain :: rest.statements
  | .print value device rest => .print value device :: rest.statements
  | .conditional line test body closing rest =>
    .openConditional line test ::
      (body.statements ++ .closeConditional closing :: rest.statements)
  | .loop line counter start test step body closing rest =>
    .openLoop line counter start test step ::
      (body.statements ++ .closeLoop closing :: rest.statements)

/-- What a script works on: the variables and the messages of each device. -/
structure State where
  store : Table String Value := {}
  outputs : Outputs := {}
deriving DecidableEq, Repr

namespace State

/-- The value of an operand: a number, a literal, a constant or a variable. -/
def read (s : State) (arg : String) : Except Fault Value :=
  (Value.ofOperand s.store arg).mapError .numeral

/-- Writes a variable. The messages stay. -/
def write (s : State) (name : String) (value : Value) : State :=
  { s with store := s.store.set name value }

/-- `dest = source`, an assignment without an operator. -/
def copy (dest source : String) (s : State) : Except Fault State :=
  (s.read source).map (s.write dest)

/-- The value of `left word right`, with the word of an operation. The left operand is read first,
so it is the one whose fault is seen. -/
def operate (word left right : String) (s : State) : Except Fault Value := do
  let a ← s.read left
  let b ← s.read right
  Value.compute word a b

/-- `dest = left op right`. The point looks up the sensor that the two texts name. -/
def combine (m : Mnemonics) (readings : Readings) (dest left : String) (op : Token)
    (right : String) (s : State) : Except Fault State :=
  if op.text = sensorOperator then .ok (s.write dest (readings.read left right))
  else (s.operate (operationWord m op) left right).map (s.write dest)

/-- The text of a value, as it is printed. -/
def text (value : String) (s : State) : Except Fault String := do
  let v ← s.read value
  v.format.mapError .numeral

/-- One message to a device: the text of a value. The machine takes two instructions for it. -/
def deliver (value device : String) (s : State) : Except Fault State :=
  (s.text value).map fun text => { s with outputs := s.outputs.deliver device text }

/-- Whether a test holds. The test is that of the machine, with the word that the operator has in
the code. -/
def holds (m : Mnemonics) (test : Test) (s : State) : Except Fault Bool := do
  let a ← s.read test.left
  let b ← s.read test.right
  Value.compare (operationWord m test.op) a b

/-- The step of a loop. Without one that is written out, the counter goes up by one. -/
def advance (m : Mnemonics) (readings : Readings) (counter : String) :
    Option Step → State → Except Fault State
  | some step, s => s.combine m readings step.dest step.left step.op step.right
  | none, s => ((s.read counter).bind (Value.compute "add" · (.int 1))).map (s.write counter)

end State

/-- How a script ends. A script that is stopped by a fault leaves the state in which it
happened. -/
inductive Ending where
  | unfinished
  | stopped (fault : Fault) (state : State)
  | finished (state : State)
deriving DecidableEq, Repr

namespace Ending

/-- The ending of a single step from `s`. -/
def ofStep (s : State) : Except Fault State → Ending
  | .ok next => .finished next
  | .error fault => .stopped fault s

/-- What comes after an ending that leaves something to come. A script that was stopped, or has
used up its rounds, goes no further. -/
def andThen (ending : Ending) (next : State → Ending) : Ending :=
  match ending with
  | .finished s => next s
  | other => other

end Ending

/-- Combines the operands of a chain into `dest`, from left to right. From the second operator on
the left operand is `dest` itself. -/
def combineChain (m : Mnemonics) (readings : Readings) (dest : String) :
    String → List (Token × String) → State → Ending
  | _, [], s => .finished s
  | left, (op, right) :: rest, s =>
    (Ending.ofStep s (s.combine m readings dest left op right)).andThen
      (combineChain m readings dest dest rest)

/-- Runs an assignment. Without an operator it is a copy, which reads its operand as a value. -/
def runAssignment (m : Mnemonics) (readings : Readings) (dest first : String)
    (chain : List (Token × String)) (s : State) : Ending :=
  if chain.isEmpty then Ending.ofStep s (s.copy dest first)
  else combineChain m readings dest first chain s

/-- Tests and runs a round as long as the test holds, and at most `rounds` times. The recursion is
on the rounds that are left. -/
def repeatWhile (test : State → Except Fault Bool) (round : State → Ending) : Nat → State → Ending
  | 0, _ => .unfinished
  | rounds + 1, s =>
    match test s with
    | .error fault => .stopped fault s
    | .ok false => .finished s
    | .ok true => (round s).andThen (repeatWhile test round rounds)

/-- Runs a script, with at most `rounds` tests each time a loop is entered. The recursion is on
the script; a loop starts with its rounds anew whenever it is entered. -/
def evaluate (m : Mnemonics) (readings : Readings) (rounds : Nat) : Script → State → Ending
  | .done, s => .finished s
  | .ignored _ _ rest, s => rest.evaluate m readings rounds s
  | .assign dest first chain rest, s =>
    (runAssignment m readings dest first chain s).andThen (rest.evaluate m readings rounds)
  | .print value device rest, s =>
    (Ending.ofStep s (s.deliver value device)).andThen (rest.evaluate m readings rounds)
  -- A body that does not finish keeps the rest from being run.
  | .conditional _ test body _ rest, s =>
    match s.holds m test with
    | .error fault => .stopped fault s
    | .ok false => rest.evaluate m readings rounds s
    | .ok true => (body.evaluate m readings rounds s).andThen (rest.evaluate m readings rounds)
  -- The step comes at the end of each round, so it is not run on entry.
  | .loop _ counter start test step body _ rest, s =>
    ((Ending.ofStep s (s.copy counter start)).andThen
      (repeatWhile (State.holds m test)
        (fun s => (body.evaluate m readings rounds s).andThen fun s =>
          Ending.ofStep s (s.advance m readings counter step))
        rounds)).andThen (rest.evaluate m readings rounds)

end Script

end Tickscript
