import Tickscript.Lexeme
import Tickscript.Text.Blank

/-!
# `Tickscript.Fragment`: statements as lists of fragments

A fragment is a lexeme without its blanks and without the terminator it may end in. Fragments are
gathered into statements: one that had a terminator closes its statement, and so does a block
closer that stands at the start of one. What follows the last closed statement is dropped.

Which words are keywords, which runs of symbols are operators, which characters close a statement
and which words close it by themselves is the vocabulary of the language. The shape of words,
numbers and literals is not part of it: it is the same for every vocabulary.
-/

set_option autoImplicit false

namespace Tickscript

open Tickscript.Text

/-- The parts of the language that can be exchanged. A statement is closed by a fragment that ends
in a character of `terminators`, or by a word of `blockClosers` that stands at its start. -/
structure Vocabulary where
  keywords : List String
  operators : List String
  terminators : List Char
  blockClosers : List String
deriving DecidableEq, Repr

/-- The vocabulary of the language as it is normally used. `def` and `while` are reserved,
although no statement starts with them. -/
def Vocabulary.standard : Vocabulary where
  keywords := ["if", "endif", "def", "enddef", "for", "endfor", "while", "endwhile", "print("]
  operators := ["<", "=", "==", ">", "<=", ">=", ".", "+", "-", "*", "/", "^"]
  terminators := [';', ':', ')']
  blockClosers := ["endif", "endfor", "enddef", "endwhile"]

/-- A word, number, operator or literal of a statement, with the line where it starts. -/
structure Fragment where
  text : String
  line : Nat
deriving DecidableEq, Repr

/-- Whether a trimmed lexeme ends in a terminator. -/
def Vocabulary.isTerminated (v : Vocabulary) (text : List Char) : Bool :=
  match text.getLast? with
  | some c => v.terminators.contains c
  | none => false

/-- Gathers lexemes into statements; `opened` holds the fragments of the statement that is being
gathered. -/
def Fragment.gather (v : Vocabulary) : List Fragment → List Lexeme → List (List Fragment)
  | _, [] => []
  | opened, lexeme :: rest =>
    let text := trim lexeme.text
    if v.isTerminated text then
      (opened ++ [⟨String.ofList text.dropLast, lexeme.line⟩]) :: gather v [] rest
    else
      let fragment : Fragment := ⟨String.ofList text, lexeme.line⟩
      if opened.isEmpty && v.blockClosers.contains fragment.text then
        [fragment] :: gather v [] rest
      else gather v (opened ++ [fragment]) rest

/-- The statements of a source text. -/
def Fragment.statements (v : Vocabulary) (source : String) : List (List Fragment) :=
  gather v [] (Lexeme.scan source)

end Tickscript
