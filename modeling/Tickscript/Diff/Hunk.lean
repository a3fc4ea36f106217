import Tickscript.Diff

/-!
# `Tickscript.Diff.Hunk`: a diff for readers

The changes of a script are shown in hunks, each with up to three kept lines before and after it.
Changes with at most six kept lines between them share a hunk. The header of a hunk says where it
starts and how long it is on both sides.
-/

set_option autoImplicit false

namespace Tickscript.Diff

/-- How many kept lines are shown around a change. -/
def context : Nat := 3

/-- Edits that are shown together, with the lines on either side that come before them. -/
structure Hunk where
  oldStart : Nat
  newStart : Nat
  edits : List Edit
deriving DecidableEq, Repr

/-- The last `n` of some lines. -/
def lastLines (n : Nat) (lines : List String) : List String :=
  lines.drop (lines.length - n)

/-- Gathers edits into hunks. The hunk that is being gathered started at `(i, j)`, its edits so
far are `opened`, and `(oldHere, newHere)` is where the next edit starts. -/
def gatherHunks (i j oldHere newHere : Nat) (opened : List Edit) : List Edit → List Hunk
  | [] => if opened.any Edit.isChange then [⟨i, j, opened⟩] else []
  | .keep lines :: rest =>
    if 2 * context < lines.length then
      let skipped := lines.length - context
      ⟨i, j, opened ++ [.keep (lines.take context)]⟩ ::
        gatherHunks (oldHere + skipped) (newHere + skipped) (oldHere + lines.length)
          (newHere + lines.length) [.keep (lastLines context lines)] rest
    else
      gatherHunks i j (oldHere + lines.length) (newHere + lines.length)
        (opened ++ [.keep lines]) rest
  | .change removed added :: rest =>
    gatherHunks i j (oldHere + removed.length) (newHere + added.length)
      (opened ++ [.change removed added]) rest

/-- Cuts the kept lines at the end of a script down to the context. -/
def trimEnd : List Edit → List Edit
  | [] => []
  | [.keep lines] => [.keep (lines.take context)]
  | edit :: rest => edit :: trimEnd rest

/-- The hunks of a script. Kept lines at its start are cut down to the context too. -/
def hunks : List Edit → List Hunk
  | .keep lines :: rest =>
    let skipped := lines.length - context
    gatherHunks skipped skipped skipped skipped []
    (trimEnd (.keep (lastLines context lines) :: rest))
  | edits => gatherHunks 0 0 0 0 [] (trimEnd edits)

/-- A range of lines in a header. Lines are counted from one; an empty range names the line before
it, and a length of one is left out. -/
def rangeText (start length : Nat) : String :=
  if length = 1 then toString (start + 1)
  else if length = 0 then toString start ++ ",0"
  else toString (start + 1) ++ "," ++ toString length

/-- The header of a hunk. -/
def Hunk.header (h : Hunk) : String :=
  "@@ -" ++ rangeText h.oldStart (h.edits.flatMap Edit.oldLines).length ++
    " +" ++ rangeText h.newStart (h.edits.flatMap Edit.newLines).length ++ " @@"

/-- The lines that show an edit. -/
def Edit.render : Edit → List String
  | .keep lines => lines.map (" " ++ ·)
  | .change removed added => removed.map ("-" ++ ·) ++ added.map ("+" ++ ·)

/-- The lines that show a hunk. -/
def Hunk.render (h : Hunk) : List String :=
  h.header :: h.edits.flatMap Edit.render

/-- The diff of two lists of lines, with the names of the two sides in front. There are no lines
at all if there is no change. -/
def unified (oldName newName : String) (old new : List String) : List String :=
  match hunks (script old new) with
  | [] => []
  | shown => ("--- " ++ oldName) :: ("+++ " ++ newName) :: shown.flatMap Hunk.render

end Tickscript.Diff
