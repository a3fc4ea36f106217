import Tickscript.Numeral.Binary64

/-!
# `Tickscript.Value`: what variables hold

A value is nothing, a text, an integer or a floating point number. Arithmetic and comparison work
on numbers; nothing counts as zero there and every text as one. Comparison of an integer with a
floating point number is exact.
-/

set_option autoImplicit false

namespace Tickscript

open Tickscript.Numeral

/-- The content of a variable or a sensor. -/
inductive Value where
  | null
  | text (s : String)
  | int (n : Int)
  | float (x : Float)
deriving DecidableEq, Repr

/-- A value that can be calculated with. -/
inductive Number where
  | int (n : Int)
  | float (x : Float)
deriving DecidableEq, Repr

/-- The value of a number. -/
def Number.toValue : Number → Value
  | .int n => .int n
  | .float x => .float x

/-- What a value counts as in a calculation. -/
def Value.toNumber : Value → Number
  | .null => .int 0
  | .text _ => .int 1
  | .int n => .int n
  | .float x => .float x

/-- Compares two numbers, exactly; `none` if one of them is a NaN. -/
def Number.compare? : Number → Number → Option Ordering
  | .int m, .int n => some (compare m n)
  | .int m, .float y => compareInteger? m y
  | .float x, .int n => (compareInteger? n x).map Ordering.swap
  | .float x, .float y => compareFloat? x y

/-- Whether a number is zero, of either sign. -/
def Number.isZero : Number → Bool
  | .int n => n == 0
  | .float x => x == 0.0

end Tickscript
