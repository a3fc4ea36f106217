import Tickscript.Numeral.Binary64
import Tickscript.Numeral.Integer

/-!
# `Tickscript.Numeral.Decimal`: reading floating point numbers

A decimal has digits with an optional point and an optional exponent; digits of any script and
underscores between digits are accepted, as are `inf`, `infinity` and `nan` in any case. The
result is the nearest number. Too large a decimal gives infinity, and there is no limit on the
digits.
-/

set_option autoImplicit false

namespace Tickscript.Numeral

open Tickscript.Text

/-- Drops the underscores of a numeral, `none` if one of them does not stand between two digits.
The flag says whether the character before was a digit. -/
def dropUnderscores? : Bool → List Char → Option (List Char)
  | _, [] => some []
  | afterDigit, '_' :: rest =>
    match rest with
    | d :: _ => if afterDigit && d.isDigit then dropUnderscores? false rest else none
    | [] => none
  | _, c :: rest => (dropUnderscores? c.isDigit rest).map (c :: ·)

/-- The number `digits * 10 ^ place` nearest to it. The two tests in front only spare the work of
writing out a huge power of ten: below them the result is zero, above them infinity. -/
def ofDecimal (negative : Bool) (digits : List Char) (place : Int) : Float :=
  let significant := digits.dropWhile (· == '0')
  let magnitude := (significant.length : Int) + place
  if significant.isEmpty || magnitude < -330 then nearest negative 0 1
  else if 330 < magnitude then nearest negative (pow2 1024) 1
  else
    nearest negative (digitsValue 10 significant * pow10 place.toNat) (pow10 (-place).toNat)

/-- Reads the exponent of a decimal, which may be absent. -/
def readExponent? : List Char → Option Int
  | [] => some 0
  | c :: rest =>
    if c = 'e' || c = 'E' then
      let (negative, digits) := splitSign rest
      if digits.isEmpty || !digits.all (·.isDigit) then none
      else some (signed negative (digitsValue 10 digits))
    else none

/-- Reads a decimal without a sign. -/
def readUnsigned? (negative : Bool) (cs : List Char) : Option Float :=
  let whole := cs.takeWhile (·.isDigit)
  let rest := cs.dropWhile (·.isDigit)
  let afterPoint := if rest.head? = some '.' then rest.tail else []
  let fraction := afterPoint.takeWhile (·.isDigit)
  let tail := if rest.head? = some '.' then afterPoint.dropWhile (·.isDigit) else rest
  if whole.isEmpty && fraction.isEmpty then none
  else
    (readExponent? tail).map fun exponent =>
      ofDecimal negative (whole ++ fraction) (exponent - fraction.length)

/-- The number that a text stands for. -/
def readFloat? (text : String) : Option Float := do
  let (negative, cs) := splitSign (← dropUnderscores? false (plainNumeral text))
  let word := String.ofList (cs.map Char.toLower)
  if word = "inf" || word = "infinity" then some (nearest negative (pow2 1024) 1)
  else if word = "nan" then some (0.0 / 0.0)
  else readUnsigned? negative cs

end Tickscript.Numeral
