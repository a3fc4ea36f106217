import Tickscript.Token

/-!
# `Tickscript.CompileError`: what stops a compilation

Each constructor is one cause, with the place it was found. The wording is in `detail`; `message`
puts the line in front. `category` groups the causes as reports do.
-/

set_option autoImplicit false

namespace Tickscript

/-- The two kinds of blocks. -/
inductive Block where
  | conditional
  | loop
deriving DecidableEq, Repr

/-- The word that opens a block. -/
def Block.opener : Block → String
  | .conditional => "if"
  | .loop => "for"

/-- The word that closes a block. -/
def Block.closer : Block → String
  | .conditional => "endif"
  | .loop => "endfor"

/-- Why a source text or a statement was refused. -/
inductive CompileError where
  | unrecognizedToken (fragment : String) (line : Int)
  | emptyStatement
  | unsupportedKeyword (word : String) (line : Int)
  | badStart (kind : TokenKind) (text : String) (line : Int)
  | assignmentLength (line : Int)
  | conditionalShape (line : Int)
  | loopShape (line : Int)
  | loopLength (line : Int)
  | printShape (line : Int)
  | closerArguments (block : Block) (line : Int)
  | expectedOperand (text : String) (line : Int)
  | expectedName (text : String) (line : Int)
  | expectedOperator (text : String) (line : Int)
  | expectedEquals (text : String) (line : Int)
  | unsupportedOperator (operator : String) (line : Int)
  | unmatchedCloser (block : Block) (line : Int)
  | unclosedBlock (block : Block) (line : Int)
deriving DecidableEq, Repr

/-- The five groups of causes. -/
inductive CompileError.Category where
  | lexical
  | arity
  | unsupportedOperator
  | unbalancedBlock
  | unrecognizedStatement
deriving DecidableEq, Repr

namespace CompileError

/-- The group a cause belongs to. -/
def category : CompileError → Category
  | .unrecognizedToken .. => .lexical
  | .unsupportedKeyword .. | .badStart .. => .unrecognizedStatement
  | .unsupportedOperator .. => .unsupportedOperator
  | .unmatchedCloser .. | .unclosedBlock .. => .unbalancedBlock
  | .emptyStatement | .assignmentLength .. | .conditionalShape .. | .loopShape .. | .loopLength ..
  | .printShape .. | .closerArguments .. | .expectedOperand .. | .expectedName ..
  | .expectedOperator .. | .expectedEquals .. => .arity

/-- The line a cause was found on. An empty statement is on no line. -/
def line? : CompileError → Option Int
  | .emptyStatement => none
  | .unrecognizedToken _ line | .unsupportedKeyword _ line | .badStart _ _ line
  | .assignmentLength line | .conditionalShape line | .loopShape line | .loopLength line
  | .printShape line | .closerArguments _ line | .expectedOperand _ line | .expectedName _ line
  | .expectedOperator _ line | .expectedEquals _ line | .unsupportedOperator _ line
  | .unmatchedCloser _ line | .unclosedBlock _ line => some line

/-- The words for a cause, without its line. -/
def detail : CompileError → String
  | .unrecognizedToken fragment _ => "unrecognized token " ++ braced fragment
  | .emptyStatement => "empty statement"
  | .unsupportedKeyword word _ => "keyword " ++ braced word ++ " is not supported"
  | .badStart kind text _ => "statement cannot start with " ++ kind.word ++ " " ++ braced text
  | .assignmentLength _ => "invalid quantity of tokens in variable assignment"
  | .conditionalShape _ =>
    "invalid if statement syntax, required: if <value> <operator> <value>"
  | .loopShape _ =>
    "invalid for statement syntax, required: for <var> = <value> <sep> <value> <operator> <value>"
  | .loopLength _ => "invalid quantity of tokens in for statement"
  | .printShape _ =>
    "invalid print statement syntax, required: print(<value>, <device>)"
  | .closerArguments block _ => "'" ++ block.closer ++ "' takes no arguments"
  | .expectedOperand text _ => "expected variable or value, got " ++ braced text
  | .expectedName text _ => "expected variable, got " ++ braced text
  | .expectedOperator text _ => "expected operator, got " ++ braced text
  | .expectedEquals text _ => "expected '=', got " ++ braced text
  | .unsupportedOperator operator _ => "operator " ++ braced operator ++ " not supported"
  | .unmatchedCloser block _ =>
    "'" ++ block.closer ++ "' without matching '" ++ block.opener ++ "'"
  | .unclosedBlock block _ => "'" ++ block.opener ++ "' block is never closed"

/-- The words for a cause, with its line in front if it has one. -/
def message (e : CompileError) : String :=
  match e.line? with
  | some line => "line " ++ toString line ++ ": " ++ e.detail
  | none => e.detail

end CompileError

end Tickscript
