/-!
# `Tickscript.Token`: fragments with a kind

A token is a fragment whose role is known. Its line only serves messages; tokens that do not come
from a source text may have any line.
-/

set_option autoImplicit false

namespace Tickscript

/-- The role of a fragment. A `name` is a variable, a device, a sensor or one of its
properties. -/
inductive TokenKind where
  | keyword
  | operator
  | name
  | value
deriving DecidableEq, Repr

/-- How a kind is called in a listing of tokens. -/
def TokenKind.label : TokenKind → String
  | .keyword => "Keyword"
  | .operator => "Operator"
  | .name => "Variable"
  | .value => "Value"

/-- How a kind is called in the middle of a message. -/
def TokenKind.word : TokenKind → String
  | .keyword => "keyword"
  | .operator => "operator"
  | .name => "variable"
  | .value => "value"

/-- A fragment with its kind. -/
structure Token where
  kind : TokenKind
  text : String
  line : Int := 0
deriving DecidableEq, Repr

/-- Names and values can be read, so they can stand where an operand is wanted. -/
def Token.isOperand (t : Token) : Bool :=
  t.kind == .name || t.kind == .value

/-- A text between braces, as messages and listings show it. -/
def braced (text : String) : String :=
  "\x7b" ++ text ++ "\x7d"

/-- The lines that list one statement. -/
def Token.listingLines (statement : List Token) : List String :=
  "Sequence:" :: statement.map (fun t => "Token : " ++ t.kind.label ++ " - " ++ braced t.text) ++
    [""]

/-- A listing of statements, one token a line. -/
def Token.listing (statements : List (List Token)) : String :=
  "\n".intercalate (statements.flatMap listingLines)

end Tickscript
