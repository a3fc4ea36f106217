/-!
# `Tickscript.Numeral.Binary64`: floating point numbers as exact fractions

Whatever must be exact about binary64 numbers is done on fractions of integers. `partsOf` takes a
number apart into sign, significand and exponent, and `nearest` goes back: it gives the number
that is nearest to a fraction, with a tie going to the even significand. Reading a decimal,
converting an integer and dividing two integers are all one call of `nearest`, so each of them
rounds once.
-/

set_option autoImplicit false

namespace Tickscript.Numeral

/-- A power of two. -/
def pow2 (k : Nat) : Nat := Nat.pow 2 k

/-- A power of ten. -/
def pow10 (k : Nat) : Nat := Nat.pow 10 k

/-- What a binary64 number is. A finite one is `significand * 2 ^ exponent` with a sign. -/
inductive Parts where
  | nan
  | infinite (negative : Bool)
  | finite (negative : Bool) (significand : Nat) (exponent : Int)
deriving DecidableEq, Repr

/-- The exponent of the least positive number, `2 ^ leastExponent`. -/
def leastExponent : Int := -1074

/-- Takes a number apart. -/
def partsOf (x : Float) : Parts :=
  let bits := x.toBits.toNat
  let negative := bits / pow2 63 == 1
  let field : Nat := bits / pow2 52 % pow2 11
  let fraction : Nat := bits % pow2 52
  if field = 2047 then
    if fraction = 0 then .infinite negative else .nan
  else if field = 0 then .finite negative fraction leastExponent
  else .finite negative (pow2 52 + fraction) ((field : Int) - 1 + leastExponent)

/-- The quotient of two naturals, rounded to nearest with ties to even. -/
def roundedQuotient (num den : Nat) : Nat :=
  let quotient := num / den
  let rest := num % den
  if den < 2 * rest || (2 * rest == den && quotient % 2 == 1) then quotient + 1 else quotient

/-- The exponent `e` with `2 ^ e ≤ num / den < 2 ^ (e + 1)`, for positive arguments. -/
def binaryExponent (num den : Nat) : Int :=
  let guess := (num.log2 : Int) - den.log2
  if den * pow2 guess.toNat ≤ num * pow2 (-guess).toNat then guess else guess - 1

/-- The bits of positive infinity. -/
def infinityBits : Nat := 2047 * pow2 52

/-- The bits of the positive number nearest to `num / den`, those of infinity if the fraction is
too large. The significand that rounding gives is added to the exponent field, so that a
significand that rounds up to the next power of two carries into the exponent. -/
def nearestBits (num den : Nat) : Nat :=
  if num = 0 then 0
  else
    let unit := max (binaryExponent num den - 52) leastExponent
    let significand := roundedQuotient (num * pow2 (-unit).toNat) (den * pow2 unit.toNat)
    min infinityBits ((unit - leastExponent).toNat * pow2 52 + significand)

/-- The number with the given sign that is nearest to `num / den`. -/
def nearest (negative : Bool) (num den : Nat) : Float :=
  Float.ofBits (UInt64.ofNat (nearestBits num den + if negative then pow2 63 else 0))

/-- The number nearest to an integer, `none` if the integer is too large. -/
def ofInteger? (n : Int) : Option Float :=
  let x := nearest (n < 0) n.natAbs 1
  if x.isInf then none else some x

/-- The number nearest to the quotient of two integers, `none` if the quotient is too large. The
divisor is not zero. A zero quotient is negative when exactly one of the two integers is. -/
def quotient? (a b : Int) : Option Float :=
  let x := nearest ((a < 0) != (b < 0)) a.natAbs b.natAbs
  if x.isInf then none else some x

/-- The integer that an integral number equals, `none` for every other number. -/
def toInteger? (x : Float) : Option Int :=
  match partsOf x with
  | .finite negative significand exponent =>
    let scaled := significand * pow2 exponent.toNat
    let unit := pow2 (-exponent).toNat
    if scaled % unit = 0 then
      let magnitude : Int := scaled / unit
      some (if negative then -magnitude else magnitude)
    else none
  | _ => none

/-- Compares an integer with a number, exactly; `none` for a NaN. -/
def compareInteger? (n : Int) (x : Float) : Option Ordering :=
  match partsOf x with
  | .nan => none
  | .infinite negative => some (if negative then .gt else .lt)
  | .finite negative significand exponent =>
    let scaled : Int := (significand * pow2 exponent.toNat : Nat)
    some (compare (n * (pow2 (-exponent).toNat : Nat)) (if negative then -scaled else scaled))

/-- Compares two numbers; `none` if one of them is a NaN. -/
def compareFloat? (x y : Float) : Option Ordering :=
  if x < y then some .lt else if x == y then some .eq else if y < x then some .gt else none

end Tickscript.Numeral
