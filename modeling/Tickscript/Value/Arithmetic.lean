import Tickscript.Numeral.Integer
import Tickscript.Value

/-!
# `Tickscript.Value.Arithmetic`: the four operations and powers

Integers stay integers under addition, subtraction and multiplication, and mixed operands are
calculated as floating point numbers. A quotient is always a floating point number, rounded once.
A quotient by zero and a power that has no number as result give no number at all, which is not an
error; an integer too large for a floating point calculation is one.
-/

set_option autoImplicit false

namespace Tickscript

open Tickscript.Numeral

/-- Why a calculation failed. -/
inductive ArithmeticFault where
  | operandTooLarge
  | quotientTooLarge
deriving DecidableEq, Repr

/-- The wording of a fault. -/
def ArithmeticFault.message : ArithmeticFault → String
  | .operandTooLarge => "int too large to convert to float"
  | .quotientTooLarge => "integer division result too large for a float"

namespace Number

/-- The nearest floating point number. -/
def toFloat : Number → Except ArithmeticFault Float
  | .int n =>
    match ofInteger? n with
    | some x => .ok x
    | none => .error .operandTooLarge
  | .float x => .ok x

/-- An operation on integers if both operands are, else on floating point numbers. -/
def combine (onInts : Int → Int → Int) (onFloats : Float → Float → Float) (a b : Number) :
    Except ArithmeticFault Number :=
  match a, b with
  | .int m, .int n => .ok (.int (onInts m n))
  | _, _ => do return .float (onFloats (← a.toFloat) (← b.toFloat))

/-- Addition. -/
def add : Number → Number → Except ArithmeticFault Number :=
  combine (· + ·) (· + ·)

/-- Subtraction. -/
def sub : Number → Number → Except ArithmeticFault Number :=
  combine (· - ·) (· - ·)

/-- Multiplication. -/
def mul : Number → Number → Except ArithmeticFault Number :=
  combine (· * ·) (· * ·)

/-- Division; no number if the divisor is zero. -/
def div (a b : Number) : Except ArithmeticFault (Option Number) :=
  if b.isZero then .ok none
  else
    match a, b with
    | .int m, .int n =>
      match quotient? m n with
      | some x => .ok (some (.float x))
      | none => .error .quotientTooLarge
    | _, _ => do return some (.float ((← a.toFloat) / (← b.toFloat)))

/-- A power of an integer. The bases 0, 1 and -1 are kept apart because their exponents may be
huge. -/
def integerPower (base : Int) (exponent : Nat) : Int :=
  let negative := base < 0 && exponent % 2 == 1
  if exponent = 0 then 1
  else signed negative (if base.natAbs ≤ 1 then base.natAbs else Nat.pow base.natAbs exponent)

/-- Whether a floating point number is an odd integer. -/
def isOdd (x : Float) : Bool :=
  match toInteger? x with
  | some n => n % 2 == 1
  | none => false

/-- The positive infinity. -/
def infinity : Float := 1.0 / 0.0

/-- Zero with the sign of `x`. -/
def zeroLike (x : Float) : Float :=
  if x < 0.0 then -0.0 else 0.0

/-- A power of an infinite base. The sign shows if the exponent is odd. -/
def infinitePower (x y : Float) : Float :=
  if 0.0 < y then (if isOdd y then x else infinity)
  else if isOdd y then zeroLike x else 0.0

/-- A power with an infinite exponent. -/
def powerToInfinity (x y : Float) : Float :=
  if x.abs == 1.0 then 1.0
  else if (0.0 < y : Bool) == (1.0 < x.abs : Bool) then infinity
  else 0.0

/-- A power of two finite numbers, neither of them zero. There is none for a fractional power of a
negative base, nor if the result is too large. -/
def finitePower? (x y : Float) : Option Float :=
  if x < 0.0 && (toInteger? y).isNone then none
  else
    let size := if x.abs == 1.0 then 1.0 else Float.pow x.abs y
    if size.isInf then none else some (if x < 0.0 && isOdd y then -size else size)

/-- A power of floating point numbers. Zero has no negative power. -/
def floatPower? (x y : Float) : Option Float :=
  if y == 0.0 then some 1.0
  else if x.isNaN then some x
  else if y.isNaN then some (if x == 1.0 then 1.0 else y)
  else if y.isInf then some (powerToInfinity x y)
  else if x.isInf then some (infinitePower x y)
  else if x == 0.0 then
    if y < 0.0 then none else some (if isOdd y then x else 0.0)
  else finitePower? x y

/-- A power. That of an integer with a natural exponent is exact; all others are calculated as
floating point numbers, and there is none if an operand is too large for that. -/
def pow? (a b : Number) : Option Number :=
  let inFloats := do
    let x ← a.toFloat.toOption
    let y ← b.toFloat.toOption
    (floatPower? x y).map Number.float
  match a, b with
  | .int m, .int n => if 0 ≤ n then some (.int (integerPower m n.toNat)) else inFloats
  | _, _ => inFloats

end Number

end Tickscript
