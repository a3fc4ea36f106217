import Tickscript.CompileError
import Tickscript.Fragment

/-!
# `Tickscript.Token.Classify`: the kind of each fragment

A fragment is a keyword or an operator if the vocabulary says so, else a name or a value by its
shape. A fragment of no kind ends the compilation, before any code is generated.
-/

set_option autoImplicit false

namespace Tickscript

open Tickscript.Text

/-- The shape of a name: a letter, word characters, and any number of boundary characters. -/
def isNameText : List Char → Bool
  | [] => false
  | c :: rest => isLetter c && (rest.dropWhile isWordChar).all isBoundary

/-- The shape of a literal: quotes at both ends and none between. -/
def isLiteralText : List Char → Bool
  | '"' :: rest =>
    match cutAtQuote? rest with
    | some (_, after) => after.isEmpty
    | none => false
  | _ => false

/-- The shape of a value: digits, or a literal. -/
def isValueText (cs : List Char) : Bool :=
  (!cs.isEmpty && cs.all isDigit) || isLiteralText cs

/-- The kind of a text, if it has one. -/
def TokenKind.ofText? (v : Vocabulary) (text : String) : Option TokenKind :=
  if v.keywords.contains text then some .keyword
  else if v.operators.contains text then some .operator
  else if isNameText text.toList then some .name
  else if isValueText text.toList then some .value
  else none

/-- The token of a fragment. -/
def Token.ofFragment (v : Vocabulary) (f : Fragment) : Except CompileError Token :=
  match TokenKind.ofText? v f.text with
  | some kind => .ok ⟨kind, f.text, f.line⟩
  | none => .error (.unrecognizedToken f.text f.line)

/-- The statements of a source text as tokens. The first fragment of no kind, in the order of the
source, is the error. -/
def Token.parse (v : Vocabulary) (source : String) : Except CompileError (List (List Token)) :=
  (Fragment.statements v source).mapM (·.mapM (Token.ofFragment v))

end Tickscript
