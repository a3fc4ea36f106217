import Tickscript.Numeral.Decimal
import Tickscript.Numeral.Shortest
import Tickscript.Table
import Tickscript.Value

/-!
# `Tickscript.Value.Operand`: values as text

An argument of an instruction is a literal, a number, one of three constants or the name of a
variable, and its shape decides which. The other way, a value is printed as a text; a floating
point number that is an integer is printed as one.
-/

set_option autoImplicit false

namespace Tickscript

open Tickscript.Numeral Tickscript.Text

/-- The text between the quotes of a literal: any text of two characters or more that starts and
ends with a double quote. -/
def literalBody? (text : String) : Option String :=
  match text.toList with
  | '"' :: rest => if rest.getLast? = some '"' then some (String.ofList rest.dropLast) else none
  | _ => none

/-- The two forms of a number that an argument may have. -/
inductive NumeralShape where
  | whole
  | fractional
deriving DecidableEq, Repr

/-- The form of a number: an optional minus, digits, and optionally a point and digits. -/
def NumeralShape.of? (cs : List Char) : Option NumeralShape :=
  let unsigned := if cs.head? = some '-' then cs.tail else cs
  if (unsigned.takeWhile isDigit).isEmpty then none
  else
    match unsigned.dropWhile isDigit with
    | [] => some .whole
    | '.' :: fraction =>
      if !fraction.isEmpty && fraction.all isDigit then some .fractional else none
    | _ => none

/-- The constants, which are no variables. -/
def constant? (name : String) : Option Value :=
  match name with
  | "true" => some (.int 1)
  | "false" => some (.int 0)
  | "null" => some .null
  | _ => none

/-- The value of an argument. A variable that was never written holds nothing. -/
def Value.ofOperand (store : Table String Value) (arg : String) : Except IntegerFault Value :=
  match literalBody? arg with
  | some body => .ok (.text body)
  | none =>
    match NumeralShape.of? arg.toList with
    | some .whole => (readInteger arg).map Value.int
    | some .fractional => .ok (.float ((readFloat? arg).getD 0.0))
    | none => .ok ((constant? arg).getD ((store.get? arg).getD .null))

/-- The text that printing a value adds to the buffer. -/
def Value.format : Value → Except IntegerFault String
  | .null => .ok "null"
  | .text s => .ok s
  | .int n => writeInteger n
  | .float x =>
    match toInteger? x with
    | some n => writeInteger n
    | none => .ok (writeFloat x)

end Tickscript
