/-!
# `Tickscript.Diff`: what two lists of lines have in common

Two lists are aligned by their longest common run of lines, then what stands before it and what
stands after it are aligned in the same way. Of several longest runs the one earliest on the old
side is taken, and then the earliest on the new side.

In a long list a line that occurs often says little about the alignment. Such a popular line never
starts or carries a run, but a run is extended over popular lines on both of its ends.
-/

set_option autoImplicit false

namespace Tickscript.Diff

/-- From how many lines on the popular lines are set aside. -/
def popularityLimit : Nat := 200

/-- Whether a line occurs too often among the new lines to guide the alignment. -/
def isPopular (new : List String) (line : String) : Bool :=
  popularityLimit ≤ new.length && new.length / 100 + 1 < new.count line

/-- The number of lines, from the start of two lists on, that are equal and satisfy `guides`. -/
def runLength (guides : String → Bool) : List String → List String → Nat
  | a :: old, b :: new => if a = b && guides b then runLength guides old new + 1 else 0
  | _, _ => 0

/-- A run of lines that two lists share: where it starts on either side and its length. -/
structure Block where
  old : Nat
  new : Nat
  size : Nat
deriving DecidableEq, Repr

/-- The better of two runs; the first of two that are equally long. -/
def Block.better (best next : Block) : Block :=
  if best.size < next.size then next else best

/-- The best run that starts with the first of the `old` lines, which is line `i`. The lines `new`
start with line `j`. -/
def bestInRow (guides : String → Bool) (i : Nat) (old : List String) :
    Nat → List String → Block → Block
  | _, [], best => best
  | j, b :: new, best =>
    bestInRow guides i old (j + 1) new (best.better ⟨i, j, runLength guides old (b :: new)⟩)

/-- The best run of all; the `old` lines start with line `i`. -/
def bestRun (guides : String → Bool) (new : List String) : Nat → List String → Block → Block
  | _, [], best => best
  | i, a :: old, best =>
    bestRun guides new (i + 1) old (bestInRow guides i (a :: old) 0 new best)

/-- Extends a run on both ends as far as the lines are equal, popular or not. -/
def Block.extend (run : Block) (old new : List String) : Block :=
  -- Both heads are turned round, so that the run is followed backwards from where it starts.
  let back := runLength (fun _ => true) (old.take run.old).reverse (new.take run.new).reverse
  let ahead :=
    runLength (fun _ => true) (old.drop (run.old + run.size)) (new.drop (run.new + run.size))
  ⟨run.old - back, run.new - back, back + run.size + ahead⟩

/-- The run by which two lists are aligned. Its size is zero if there is none. -/
def longestBlock (guides : String → Bool) (old new : List String) : Block :=
  (bestRun guides new 0 old ⟨0, 0, 0⟩).extend old new

/-- The runs that two lists share, in order. The lists start with lines `i` and `j`. That a run
lies within the old lines is asked for only so that the recursion is seen to end. -/
def sharedBlocks (guides : String → Bool) (i j : Nat) (old new : List String) : List Block :=
  let run := longestBlock guides old new
  if _h : 0 < run.size ∧ run.old + run.size ≤ old.length then
    sharedBlocks guides i j (old.take run.old) (new.take run.new) ++
      ⟨i + run.old, j + run.new, run.size⟩ ::
        sharedBlocks guides (i + run.old + run.size) (j + run.new + run.size)
          (old.drop (run.old + run.size)) (new.drop (run.new + run.size))
  else []
termination_by old.length
decreasing_by
  · have bounds := _h
    simp only [run] at bounds
    simp only [List.length_take]
    omega
  · have bounds := _h
    simp only [run] at bounds
    simp only [List.length_drop]
    omega

/-- A step of the way from the old lines to the new: lines that stay, or lines that are replaced
by others. -/
inductive Edit where
  | keep (lines : List String)
  | change (removed added : List String)
deriving DecidableEq, Repr

/-- Whether an edit changes something. -/
def Edit.isChange : Edit → Bool
  | .keep _ => false
  | .change .. => true

/-- The lines of the old side. -/
def Edit.oldLines : Edit → List String
  | .keep lines => lines
  | .change removed _ => removed

/-- The lines of the new side. -/
def Edit.newLines : Edit → List String
  | .keep lines => lines
  | .change _ added => added

/-- A change in front of a script; nothing if there is nothing to change. -/
def consChange (removed added : List String) (script : List Edit) : List Edit :=
  if removed.isEmpty && added.isEmpty then script else .change removed added :: script

/-- Kept lines in front of a script, joined with kept lines there. -/
def consKeep (lines : List String) : List Edit → List Edit
  | .keep more :: script => .keep (lines ++ more) :: script
  | script => .keep lines :: script

/-- The script that follows from the shared runs. The lists start with lines `i` and `j`. -/
def scriptOf (i j : Nat) (old new : List String) : List Block → List Edit
  | [] => consChange old new []
  | run :: rest =>
    let a := run.old - i
    let b := run.new - j
    consChange (old.take a) (new.take b)
      (consKeep ((old.drop a).take run.size)
        (scriptOf (run.old + run.size) (run.new + run.size)
          (old.drop (a + run.size)) (new.drop (b + run.size)) rest))

/-- The script from the old lines to the new ones. -/
def script (old new : List String) : List Edit :=
  scriptOf 0 0 old new (sharedBlocks (! isPopular new ·) 0 0 old new)

end Tickscript.Diff
