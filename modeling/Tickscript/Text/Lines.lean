/-!
# `Tickscript.Text.Lines`: where lines end

Two notions of a line are in use. A program text and the two sides of a diff are split at every
line break (`splitLines`). A text that comes from a file has its carriage returns normalised first
(`normalizeNewlines`), and where such a file is read line by line only `\n` ends a line.
-/

set_option autoImplicit false

namespace Tickscript.Text

/-- The ten characters that end a line. The pair `\r\n` ends one line only. -/
def isLineBreak (c : Char) : Bool :=
  c == '\n' || c == '\r' || c == '\x0b' || c == '\x0c' || c == '\x1c' || c == '\x1d' || c
    == '\x1e' ||
    c == '\u0085' || c == '\u2028' || c == '\u2029'

/-- Puts a character in front of the first line. -/
def consLine (c : Char) : List (List Char) → List (List Char)
  | [] => [[c]]
  | line :: lines => (c :: line) :: lines

/-- The lines of a text, without their line breaks. A break at the very end opens no further line,
so the empty text has no line and `"\n"` has one. -/
def splitLines : List Char → List (List Char)
  | [] => []
  | '\r' :: '\n' :: rest => [] :: splitLines rest
  | c :: rest => if isLineBreak c then [] :: splitLines rest else consLine c (splitLines rest)

/-- Writes `\r\n` and a lone `\r` as `\n`. -/
def normalizeNewlines : List Char → List Char
  | [] => []
  | '\r' :: '\n' :: rest => '\n' :: normalizeNewlines rest
  | c :: rest => (if c = '\r' then '\n' else c) :: normalizeNewlines rest

/-- The lines of a file, whose newlines are normalised. A newline at the very end opens no further
line. -/
def fileLines : List Char → List (List Char)
  | [] => []
  | c :: rest => if c = '\n' then [] :: fileLines rest else consLine c (fileLines rest)

/-- A text as it is read from a file. -/
def fromFile (text : String) : String :=
  String.ofList (normalizeNewlines text.toList)

/-- The lines of `text`, split at every line break. -/
def linesOf (text : String) : List String :=
  (splitLines text.toList).map String.ofList

end Tickscript.Text
