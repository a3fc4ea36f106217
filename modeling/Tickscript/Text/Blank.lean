import Tickscript.Text.Character

/-!
# `Tickscript.Text.Blank`: blank characters, trimming and fields

Blanks separate the words of a program line and of a schedule line, and they are trimmed from
lexemes. The class holds 29 code points, among them the four separators `U+001C` to `U+001F` that
many libraries leave out.
-/

set_option autoImplicit false

namespace Tickscript.Text

/-- The blank code points, as closed ranges in increasing order. -/
def blankRanges : List (Nat × Nat) :=
  [(0x09, 0x0d), (0x1c, 0x20), (0x85, 0x85), (0xa0, 0xa0), (0x1680, 0x1680), (0x2000, 0x200a),
   (0x2028, 0x2029), (0x202f, 0x202f), (0x205f, 0x205f), (0x3000, 0x3000)]

/-- Whether `c` is a blank. -/
def isBlank (c : Char) : Bool :=
  inRanges blankRanges c.toNat

/-- Drops the characters in the class `p` from both ends of a text. -/
def trimBy (p : Char → Bool) (cs : List Char) : List Char :=
  ((cs.dropWhile p).reverse.dropWhile p).reverse

/-- Drops the blanks from both ends of a text. -/
def trim (cs : List Char) : List Char :=
  trimBy isBlank cs

/-- The first `n` words of a text, and what follows them as one last field. The last field starts
at its first non-blank character and keeps every blank after that. There is no field for a rest
that is all blank. -/
def fields : Nat → List Char → List (List Char)
  | 0, cs =>
    match cs.dropWhile isBlank with
    | [] => []
    | rest => [rest]
  | n + 1, cs =>
    match cs.dropWhile isBlank with
    | [] => []
    | rest => rest.takeWhile (! isBlank ·) :: fields n (rest.dropWhile (! isBlank ·))

end Tickscript.Text
