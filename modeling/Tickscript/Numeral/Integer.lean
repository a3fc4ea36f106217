import Tickscript.Text.Blank
import Tickscript.Text.Quoted

/-!
# `Tickscript.Numeral.Integer`: integers as text

Integers are unbounded, but their decimal form is limited to 4300 digits in either direction.
Reading accepts a sign, decimal digits of any script, single underscores between digits and
padding on both sides. `readLiteral?` also knows the hexadecimal, octal and binary forms, which
have no limit.

Three things can be wrong with a decimal text at once, and then the first of these is reported: a
misplaced underscore, too many digits, any other character.
-/

set_option autoImplicit false

namespace Tickscript.Numeral

open Tickscript.Text

/-- The largest number of digits that a decimal text of an integer may have. -/
def digitLimit : Nat := 4300

/-- Why a text and an integer could not be turned into one another. -/
inductive IntegerFault where
  | malformed (text : String)
  | tooLong (digits : Nat)
  | tooLongToWrite
deriving DecidableEq, Repr

/-- How many characters of a quoted text the message about a malformed integer shows. -/
def shownLength : Nat := 200

/-- The wording of a fault. A long malformed text is cut, its closing quote included. -/
def IntegerFault.message : IntegerFault → String
  | .malformed text =>
    "invalid literal for int() with base 10: " ++
      String.ofList ((quote text).toList.take shownLength)
  | .tooLong digits =>
    "Exceeds the limit (" ++ toString digitLimit ++
      " digits) for integer string conversion: value has " ++
      toString digits ++ " digits; use sys.set_int_max_str_digits() to increase the limit"
  | .tooLongToWrite =>
    "Exceeds the limit (" ++ toString digitLimit ++ " digits) for integer string conversion; " ++
      "use sys.set_int_max_str_digits() to increase the limit"

/-- A character of a numeral in ASCII: a digit of another script becomes the ASCII digit, a blank
from outside ASCII the space, and any other character from outside ASCII a `?`, which no numeral
holds. -/
def plainChar (c : Char) : Char :=
  if c.toNat < 128 then c
  else
    match digitValue? c with
    | some d => Char.ofNat (48 + d)
    | none => if isBlank c then ' ' else '?'

/-- Padding around a numeral, once it is in ASCII. The separators `U+001C` to `U+001F` are blanks
elsewhere but no padding. -/
def isPadding (c : Char) : Bool :=
  c == ' ' || (9 ≤ c.toNat && c.toNat ≤ 13)

/-- A numeral in ASCII and without its padding. -/
def plainNumeral (text : String) : List Char :=
  trimBy isPadding (text.toList.map plainChar)

/-- Splits a sign from a numeral; `true` means minus. -/
def splitSign : List Char → Bool × List Char
  | '-' :: rest => (true, rest)
  | '+' :: rest => (false, rest)
  | cs => (false, cs)

/-- The value of an ASCII letter or digit as a digit; other characters have a value that no radix
admits. -/
def charValue (c : Char) : Nat :=
  if c.isDigit then c.toNat - 48
  else if c.isLower then c.toNat - 87
  else if c.isUpper then c.toNat - 55
  else 36

/-- Whether every underscore stands between two other characters. The flag says whether the
character before was an underscore or the start. -/
def wellSpaced : Bool → List Char → Bool
  | after, [] => !after
  | after, c :: rest => if c = '_' then !after && wellSpaced true rest else wellSpaced false rest

/-- The number that a list of digits stands for in some radix. -/
def digitsValue (radix : Nat) (digits : List Char) : Nat :=
  digits.foldl (fun acc c => acc * radix + charValue c) 0

/-- Why a run of digits is refused. -/
inductive DigitsFault where
  | malformed
  | tooLong (digits : Nat)
deriving DecidableEq, Repr

/-- Reads digits of the given radix with single underscores between them. `limited` switches the
limit on the number of digits on. -/
def readDigits (radix : Nat) (limited : Bool) (cs : List Char) : Except DigitsFault Nat :=
  let inRun := fun c => c == '_' || charValue c < radix
  let run := cs.takeWhile inRun
  let digits := run.filter (· != '_')
  -- The order of the tests decides which of several faults is reported.
  if !wellSpaced true run then .error .malformed
  else if limited && digitLimit < digits.length then .error (.tooLong digits.length)
  else if cs.dropWhile inRun ≠ [] then .error .malformed
  else .ok (digitsValue radix digits)

/-- The integer with the given sign and absolute value. -/
def signed (negative : Bool) (n : Nat) : Int :=
  if negative then -(n : Int) else n

/-- The integer that a decimal text stands for. -/
def readInteger (text : String) : Except IntegerFault Int :=
  let (negative, cs) := splitSign (plainNumeral text)
  match readDigits 10 true cs with
  | .ok n => .ok (signed negative n)
  | .error .malformed => .error (.malformed text)
  | .error (.tooLong digits) => .error (.tooLong digits)

/-- Reads the absolute value of a literal: decimal, or with one of the marks `0x`, `0o` and `0b`,
after which one underscore may stand. A decimal literal other than zero does not start with
zero. -/
def readMagnitude? (cs : List Char) : Option Nat :=
  let marked := fun (radix : Nat) (rest : List Char) =>
    (readDigits radix false (if rest.head? = some '_' then rest.tail else rest)).toOption
  match cs with
  | '0' :: 'x' :: rest | '0' :: 'X' :: rest => marked 16 rest
  | '0' :: 'o' :: rest | '0' :: 'O' :: rest => marked 8 rest
  | '0' :: 'b' :: rest | '0' :: 'B' :: rest => marked 2 rest
  -- `0`, `00` and `0_0` are zero, `01` is refused.
  | '0' :: _ => (readDigits 10 true cs).toOption.filter (· = 0)
  | _ => (readDigits 10 true cs).toOption

/-- The integer that a literal in any of the four radices stands for. -/
def readLiteral? (text : String) : Option Int :=
  let (negative, cs) := splitSign (plainNumeral text)
  (readMagnitude? cs).map (signed negative)

/-- The decimal text of an integer, refused if it had more than `digitLimit` digits. -/
def writeInteger (n : Int) : Except IntegerFault String :=
  if Nat.pow 10 digitLimit ≤ n.natAbs then .error .tooLongToWrite else .ok (toString n)

end Tickscript.Numeral
