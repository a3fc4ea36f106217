import Tickscript.Fault
import Tickscript.Value.Condition

/-!
# `Tickscript.Value.Compute`: operations by their words

Instructions name operations and conditions by words, and an unknown word is a fault at the moment
it is used. An operation word that looks like a comparison is looked up among the conditions, so
that an unknown one of these is reported as a condition.
-/

set_option autoImplicit false

namespace Tickscript

/-- Whether a word that names an operation asks for a comparison. -/
def namesComparison (word : String) : Bool :=
  word = "equal" || word = "equals" || word = "notEqual" || word = "strictEqual" ||
    "less".toList.isPrefixOf word.toList || "greater".toList.isPrefixOf word.toList

/-- Whether the condition named by a word holds of two values. -/
def Value.compare (word : String) (a b : Value) : Except Fault Bool :=
  match Condition.ofWord? word with
  | some c => .ok (c.holds a b)
  | none => .error (.unknownCondition word)

/-- The integer for a truth value. -/
def Value.ofBool (b : Bool) : Value :=
  .int (if b then 1 else 0)

/-- The value of a number that may be absent. -/
def Value.ofNumber? : Option Number → Value
  | some n => n.toValue
  | none => .null

/-- The arithmetic operation named by a word. -/
def Number.calculate (word : String) (a b : Number) : Except Fault Value :=
  match word with
  | "add" => ((a.add b).map Number.toValue).mapError .arithmetic
  | "sub" => ((a.sub b).map Number.toValue).mapError .arithmetic
  | "mul" => ((a.mul b).map Number.toValue).mapError .arithmetic
  | "div" => ((a.div b).map Value.ofNumber?).mapError .arithmetic
  | "pow" => .ok (Value.ofNumber? (a.pow? b))
  | _ => .error (.unknownOperation word)

/-- The result of the operation named by a word. -/
def Value.compute (word : String) (a b : Value) : Except Fault Value :=
  if namesComparison word then (Value.compare word a b).map Value.ofBool
  else Number.calculate word a.toNumber b.toNumber

end Tickscript
