import Tickscript.Value

/-!
# `Tickscript.Value.Condition`: conditions of jumps and tests

The words for conditions and what they mean. `equal` and `equals` are the same condition. Two
texts are equal if they are the same text; any other pair is compared as numbers. `strictEqual`
asks for the same kind of value as well.
-/

set_option autoImplicit false

namespace Tickscript

/-- A relation between two values. -/
inductive Condition where
  | always
  | equal
  | notEqual
  | strictEqual
  | lessThan
  | lessThanEq
  | greaterThan
  | greaterThanEq
deriving DecidableEq, Repr

/-- The condition that a word stands for. -/
def Condition.ofWord? (word : String) : Option Condition :=
  match word with
  | "always" => some .always
  | "equal" => some .equal
  | "equals" => some .equal
  | "notEqual" => some .notEqual
  | "strictEqual" => some .strictEqual
  | "lessThan" => some .lessThan
  | "lessThanEq" => some .lessThanEq
  | "greaterThan" => some .greaterThan
  | "greaterThanEq" => some .greaterThanEq
  | _ => none

/-- Equality of values of any kind. -/
def Value.equal (a b : Value) : Bool :=
  match a, b with
  | .text s, .text t => s = t
  | _, _ => a.toNumber.compare? b.toNumber = some .eq

/-- Equality of values of one kind. -/
def Value.strictEqual : Value → Value → Bool
  | .null, .null => true
  | .text s, .text t => s = t
  | .int m, .int n => m = n
  | .float x, .float y => x == y
  | _, _ => false

/-- Whether a condition holds of two values. A comparison with a NaN never does. -/
def Condition.holds (c : Condition) (a b : Value) : Bool :=
  let order := a.toNumber.compare? b.toNumber
  match c with
  | .always => true
  | .equal => a.equal b
  | .notEqual => !a.equal b
  | .strictEqual => a.strictEqual b
  | .lessThan => order = some .lt
  | .lessThanEq => order = some .lt || order = some .eq
  | .greaterThan => order = some .gt
  | .greaterThanEq => order = some .gt || order = some .eq

end Tickscript
