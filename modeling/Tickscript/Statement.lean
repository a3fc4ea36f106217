import Tickscript.CompileError

/-!
# `Tickscript.Statement`: the statements of the language

A list of tokens is read as a statement before any code is made for it. Reading decides the shape:
how many tokens there are, and where names, operands and operators stand. Which operators the
machine has is not decided here, nor whether a closing word has a block to close. The condition
operator of a loop is kept as a token, because a wrong one is only noticed after the step of the
loop.
-/

set_option autoImplicit false

namespace Tickscript

/-- The step of a loop: `dest = left op right`. -/
structure Step where
  dest : String
  left : String
  op : Token
  right : String
deriving DecidableEq, Repr

/-- The test of a conditional or a loop. -/
structure Test where
  left : String
  op : Token
  right : String
deriving DecidableEq, Repr

/-- A statement. Operands are texts, since names and values are written alike in the code;
operators are tokens, since their line may be needed for a message. -/
inductive Statement where
  /-- A name that nothing is assigned to. It is skipped with a notice. -/
  | ignored (line : Int) (words : List String)
  /-- `dest = first op₁ operand₁ op₂ operand₂ …` -/
  | assign (dest first : String) (rest : List (Token × String))
  | openConditional (line : Int) (test : Test)
  | closeConditional (line : Int)
  /-- A loop over `counter` from `start`. Without a step the counter goes up by one. -/
  | openLoop (line : Int) (counter start : String) (test : Test) (step : Option Step)
  | closeLoop (line : Int)
  | print (value device : String)
deriving DecidableEq, Repr

namespace Token

/-- Refuses a token that cannot be read. -/
def requireOperand (t : Token) : Except CompileError Unit :=
  if t.isOperand then .ok () else .error (.expectedOperand t.text t.line)

/-- Refuses a token that is not a name. -/
def requireName (t : Token) : Except CompileError Unit :=
  if t.kind = .name then .ok () else .error (.expectedName t.text t.line)

/-- Refuses a token that is not an operator. -/
def requireOperator (t : Token) : Except CompileError Unit :=
  if t.kind = .operator then .ok () else .error (.expectedOperator t.text t.line)

/-- Refuses a token that is not an equals sign. -/
def requireEquals (t : Token) : Except CompileError Unit :=
  if t.text = "=" then .ok () else .error (.expectedEquals t.text t.line)

end Token

namespace Statement

/-- The tokens two by two; `none` if one is left over. -/
def pairUp? : List Token → Option (List (Token × Token))
  | [] => some []
  | [_] => none
  | a :: b :: rest => (pairUp? rest).map ((a, b) :: ·)

/-- Reads what follows the equals sign of an assignment. All operands are looked at before the
operators are. -/
def ofAssignment (dest : Token) (expression : List Token) : Except CompileError Statement :=
  match expression with
  | [] => .error (.assignmentLength dest.line)
  | first :: rest =>
    match pairUp? rest with
    | none => .error (.assignmentLength dest.line)
    | some pairs => do
      first.requireOperand
      pairs.forM fun pair => pair.2.requireOperand
      pairs.forM fun pair => pair.1.requireOperator
      return .assign dest.text first.text (pairs.map fun pair => (pair.1, pair.2.text))

/-- Reads a statement that starts with a name. -/
def ofNameLed (dest : Token) (rest : List Token) : Except CompileError Statement :=
  let skipped := .ok (.ignored dest.line ((dest :: rest).map (·.text)))
  match rest with
  | [] => skipped
  | second :: expression =>
    if second.text = "=" then ofAssignment dest expression else skipped

/-- Reads what follows `if`. -/
def ofConditional (line : Int) : List Token → Except CompileError Statement
  | [left, op, right] => do
    left.requireOperand
    right.requireOperand
    return .openConditional line ⟨left.text, op, right.text⟩
  | _ => .error (.conditionalShape line)

/-- Reads what follows `print(`. -/
def ofPrint (line : Int) : List Token → Except CompileError Statement
  | [value, device] => do
    value.requireOperand
    device.requireOperand
    return .print value.text device.text
  | _ => .error (.printShape line)

/-- Drops the separator before the test of a loop. It is there exactly if the second token after
the start value is not an operator. -/
def dropSeparator : List Token → List Token
  | first :: second :: rest =>
    if second.kind = .operator then first :: second :: rest else second :: rest
  | tokens => tokens

/-- The shape of a loop's step, which five tokens make, or six with a separator in front. -/
inductive StepShape where
  | absent
  | present (dest equals left op right : Token)
  | wrong

/-- Finds the shape of a step. -/
def StepShape.of : List Token → StepShape
  | [] => .absent
  | [dest, equals, left, op, right] => .present dest equals left op right
  | [_, dest, equals, left, op, right] => .present dest equals left op right
  | _ => .wrong

/-- Reads a step. -/
def StepShape.read (line : Int) : StepShape → Except CompileError (Option Step)
  | .absent => .ok none
  | .present dest equals left op right => do
    dest.requireName
    equals.requireEquals
    left.requireOperand
    op.requireOperator
    right.requireOperand
    return some ⟨dest.text, left.text, op, right.text⟩
  | .wrong => .error (.loopLength line)

/-- Reads what follows the start value of a loop, once the lengths are known to be right. -/
def ofLoopParts (line : Int) (counter equals start left op right : Token) (shape : StepShape) :
    Except CompileError Statement := do
  counter.requireName
  equals.requireEquals
  start.requireOperand
  left.requireOperand
  right.requireOperand
  let step ← shape.read line
  return .openLoop line counter.text start.text ⟨left.text, op, right.text⟩ step

/-- Reads what follows `for`. Lengths are looked at before kinds. -/
def ofLoop (line : Int) : List Token → Except CompileError Statement
  | counter :: equals :: start :: first :: second :: third :: more =>
    match dropSeparator (first :: second :: third :: more) with
    | left :: op :: right :: rest =>
      match StepShape.of rest with
      | .wrong => .error (.loopLength line)
      | shape => ofLoopParts line counter equals start left op right shape
    | _ => .error (.loopLength line)
  | _ => .error (.loopShape line)

/-- Reads a closing word, which stands alone. -/
def ofCloser (block : Block) (line : Int) (statement : Statement) :
    List Token → Except CompileError Statement
  | [] => .ok statement
  | _ => .error (.closerArguments block line)

/-- Reads a statement that starts with a keyword. -/
def ofKeywordLed (head : Token) (rest : List Token) : Except CompileError Statement :=
  let line := head.line
  if head.text = "if" then ofConditional line rest
  else if head.text = "endif" then ofCloser .conditional line (.closeConditional line) rest
  else if head.text = "for" then ofLoop line rest
  else if head.text = "endfor" then ofCloser .loop line (.closeLoop line) rest
  else if head.text = "print(" then ofPrint line rest
  else .error (.unsupportedKeyword head.text line)

/-- Reads the tokens of a statement. -/
def ofTokens : List Token → Except CompileError Statement
  | [] => .error .emptyStatement
  | head :: rest =>
    match head.kind with
    | .name => ofNameLed head rest
    | .keyword => ofKeywordLed head rest
    | kind => .error (.badStart kind head.text head.line)

end Statement

end Tickscript
