import Tickscript.Numeral.Binary64

/-!
# `Tickscript.Numeral.Shortest`: the fewest digits that read back

The text of a number has as few significant digits as still single the number out, and among the
texts of that length it is the nearest. The search goes through decimal grids that get ten times
finer with each digit and tests the two grid points next to the number. Everything is exact
arithmetic on naturals; seventeen digits always suffice.
-/

set_option autoImplicit false

namespace Tickscript.Numeral

/-- The numbers that round to one number: the fractions from `low / den` to `high / den` around
`value / den`. The ends belong to it iff `closed`. -/
structure RoundingInterval where
  low : Nat
  value : Nat
  high : Nat
  den : Nat
  closed : Bool
deriving Repr

/-- The interval of `significand * 2 ^ exponent`. Below a power of two the numbers are twice as
dense, so there the lower end is nearer; the least exponent has no denser range below it. -/
def RoundingInterval.of (significand : Nat) (exponent : Int) : RoundingInterval :=
  -- Counted in quarters of the last binary place, the ends are whole numbers.
  let scale := pow2 (exponent - 2).toNat
  let below := if significand = pow2 52 && leastExponent < exponent then 1 else 2
  { low := (4 * significand - below) * scale
    value := 4 * significand * scale
    high := (4 * significand + 2) * scale
    den := pow2 (2 - exponent).toNat
    closed := significand % 2 == 0 }

/-- Whether `digits * 10 ^ place` lies in the interval. -/
def RoundingInterval.contains (r : RoundingInterval) (digits : Nat) (place : Int) : Bool :=
  let point := digits * pow10 place.toNat * r.den
  let low := r.low * pow10 (-place).toNat
  let high := r.high * pow10 (-place).toNat
  if r.closed then low ≤ point && point ≤ high else low < point && point < high

/-- The exponent `e` with `10 ^ e ≤ num / den < 10 ^ (e + 1)`, for positive arguments. -/
def decimalExponent (num den : Nat) : Int :=
  if den ≤ num then ((Nat.toDigits 10 (num / den)).length : Int) - 1
  else -((Nat.toDigits 10 ((den - 1) / num)).length : Int)

/-- The point of the grid `10 ^ place` that stands for the number, if one does: the nearer of its
two neighbours that lie in the interval, the even one of two that are equally near. -/
def RoundingInterval.onGrid? (r : RoundingInterval) (place : Int) : Option Nat :=
  let num := r.value * pow10 (-place).toNat
  let den := r.den * pow10 place.toNat
  let floor := num / den
  let near := roundedQuotient num den
  let far := if near = floor then floor + 1 else floor
  if r.contains near place then some near
  else if r.contains far place then some far
  else none

/-- Searches the grids from the one at `place` on, for `count` more digits. -/
def RoundingInterval.search (r : RoundingInterval) (place : Int) : Nat → Nat × Int
  | 0 => (r.value * pow10 (-place).toNat / (r.den * pow10 place.toNat), place)
  | count + 1 =>
    match r.onGrid? place with
    | some digits => (digits, place)
    | none => r.search (place - 1) count

/-- The shortest decimal of a positive number, as digits and the place of the last one. -/
def shortestDecimal (significand : Nat) (exponent : Int) : Nat × Int :=
  let r := RoundingInterval.of significand exponent
  r.search (decimalExponent r.value r.den) 17

/-- How a number is laid out around its digits: from which exponent to below which it is written
positionally, and the least number of digits in an exponent. -/
structure FloatLayout where
  positionalFrom : Int
  positionalBelow : Int
  exponentWidth : Nat

/-- Numbers from `0.0001` to below `10 ^ 16` are written positionally, and an exponent has at
least two digits. -/
def standardLayout : FloatLayout := ⟨-4, 16, 2⟩

/-- The significant digits `digits`, the first of which has the place `exponent`, in positional
form. There is at least one digit on either side of the point. -/
def positional (digits : List Char) (exponent : Int) : List Char :=
  if exponent < 0 then
    '0' :: '.' :: (List.replicate (-exponent - 1).toNat '0' ++ digits)
  else
    let size := exponent.toNat + 1
    let whole := digits.take size
    let fraction := digits.drop size
    whole ++ List.replicate (size - whole.length) '0' ++
      '.' :: (if fraction.isEmpty then ['0'] else fraction)

/-- The same with an exponent, which always has a sign. -/
def scientific (width : Nat) (digits : List Char) (exponent : Int) : List Char :=
  let power := Nat.toDigits 10 exponent.natAbs
  digits.take 1 ++ (if digits.length ≤ 1 then [] else '.' :: digits.drop 1) ++
    'e' :: (if exponent < 0 then '-' else '+') ::
      (List.replicate (width - power.length) '0' ++ power)

/-- The text of a positive number. Trailing zeros are not significant. -/
def layOut (layout : FloatLayout) (digits : Nat) (place : Int) : List Char :=
  let written := Nat.toDigits 10 digits
  let exponent := place + written.length - 1
  let significant := (written.reverse.dropWhile (· == '0')).reverse
  if layout.positionalFrom ≤ exponent && exponent < layout.positionalBelow then
    positional significant exponent
  else scientific layout.exponentWidth significant exponent

/-- The text of a number. -/
def writeFloat (x : Float) : String :=
  match partsOf x with
  | .nan => "nan"
  | .infinite negative => if negative then "-inf" else "inf"
  | .finite negative significand exponent =>
    let body :=
      if significand = 0 then ['0', '.', '0']
      else
        let (digits, place) := shortestDecimal significand exponent
        layOut standardLayout digits place
    String.ofList (if negative then '-' :: body else body)

end Tickscript.Numeral
