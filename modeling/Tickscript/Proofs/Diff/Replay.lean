import Mathlib
import Tickscript.Proofs.Diff.Alignment
import Tickscript.Proofs.Numeral.ReadBack
import Tickscript.Tool.Golden

/-!
# `Tickscript.Proofs.Diff.Replay`: the shown difference can be applied

A diff is read back by a small machine that knows nothing of scripts and hunks (`Replay`). It gets
the shown lines one by one. A header says where the hunk starts on both sides and how many lines
of either it has. A line that is kept or removed has to be the next of the old lines. The machine
refuses a hunk that starts before the end of the last one or at another line of the new side than
the one it has come to, and a hunk that is longer or shorter than its header says.

The lines of a diff are accepted, and what they make of the old lines are the new ones
(`patch?_hunks`). The argument goes from one shown line to an edit, a hunk and all hunks. Kept
lines that no hunk shows are what the machine copies in front of a hunk or at the end.
-/

set_option autoImplicit false

namespace Tickscript.Diff

/-! ### Reading a header -/

/-- The lines of one side that a hunk covers: how many come before it and how many it has. Here
lines are counted from zero. -/
structure Extent where
  start : Nat
  length : Nat
deriving DecidableEq, Repr

/-- Reads a range of lines, where lines are counted from one and an empty range names the line
before it. -/
def readRange? (range : List Char) : Option Extent :=
  match (range.splitOn ',').map fun part => (String.ofList part).toNat? with
  | [some (line + 1)] => some ⟨line, 1⟩
  | [some line, some 0] => some ⟨line, 0⟩
  | [some (line + 1), some length] => some ⟨line, length⟩
  | _ => none

/-- Reads a header: what it says of the old side and of the new one. Anything that is written in
another way is refused. -/
def readHeader? (line : String) : Option (Extent × Extent) :=
  match line.toList.splitOn ' ' with
  | [['@', '@'], '-' :: old, '+' :: new, ['@', '@']] => do
      return (← readRange? old, ← readRange? new)
  | _ => none

/-- The decimal digits of a number are read back. -/
theorem toNat?_toDigits (n : Nat) : (String.ofList (Nat.toDigits 10 n)).toNat? = some n := by
  rw [← Nat.repr_eq_ofList_toDigits]
  exact Nat.toNat?_repr n

/-- Numbers with commas between them are told apart and read back, since there is no comma among
digits. -/
theorem toNat?_splitOn_comma {numbers : List Nat} (h : numbers ≠ []) :
    (([','].intercalate (numbers.map (Nat.toDigits 10))).splitOn ',').map
        (fun part => (String.ofList part).toNat?) =
      numbers.map some := by
  have noComma : ∀ part ∈ numbers.map (Nat.toDigits 10), ',' ∉ part := by
    intro part hpart
    obtain ⟨n, -, rfl⟩ := List.mem_map.mp hpart
    exact Numeral.not_mem_toDigits (by decide) n
  rw [List.splitOn_intercalate ',' noComma (by simpa using h), List.map_map]
  exact List.map_congr_left fun n _ => toNat?_toDigits n

/-- The numbers of a range. One line is written without its length, and an empty range names the
line before it. -/
def rangeNumbers (start : Nat) : Nat → List Nat
  | 0 => [start, 0]
  | 1 => [start + 1]
  | length + 2 => [start + 1, length + 2]

/-- There is at least one number in a range. -/
theorem rangeNumbers_ne_nil (start length : Nat) : rangeNumbers start length ≠ [] := by
  fun_cases rangeNumbers start length <;> nofun

/-- A range is written as its numbers with commas between them. -/
theorem toList_rangeText (start length : Nat) :
    (rangeText start length).toList =
      [','].intercalate ((rangeNumbers start length).map (Nat.toDigits 10)) := by
  fun_cases rangeNumbers start length with
  | case1 => simp [rangeText, List.intercalate]
  | case2 => simp [rangeText]
  | case3 length => simp [rangeText, List.intercalate]

/-- A range is read back. The cases are the three ways to write one. -/
theorem readRange?_rangeText (start length : Nat) :
    readRange? (rangeText start length).toList = some ⟨start, length⟩ := by
  rw [readRange?, toList_rangeText, toNat?_splitOn_comma (rangeNumbers_ne_nil start length)]
  fun_cases rangeNumbers start length with
  | case1 => cases start <;> rfl
  | case2 => rfl
  | case3 length => rfl

/-- There is no space in a range, so the words of a header are told apart. -/
theorem not_mem_rangeText (start length : Nat) : ' ' ∉ (rangeText start length).toList := by
  have blank : ∀ n : Nat, ' ' ∉ Nat.toDigits 10 n := Numeral.not_mem_toDigits (by decide)
  fun_cases rangeNumbers start length <;> simp [rangeText, blank]

/-- The words of a header: the two ranges with their signs, and the marks around them. -/
def Hunk.headerWords (h : Hunk) : List (List Char) :=
  [['@', '@'], '-' :: (rangeText h.oldStart (oldSide h.edits).length).toList,
    '+' :: (rangeText h.newStart (newSide h.edits).length).toList, ['@', '@']]

/-- A header is written as its words with spaces between them. -/
theorem toList_header (h : Hunk) : h.header.toList = [' '].intercalate h.headerWords := by
  simp [Hunk.header, Hunk.headerWords, List.intercalate, oldSide, newSide]

/-- **A header is read back.** It says where the hunk starts on both sides and how many lines of
either it has. -/
theorem readHeader?_header (h : Hunk) :
    readHeader? h.header =
      some (⟨h.oldStart, (oldSide h.edits).length⟩, ⟨h.newStart, (newSide h.edits).length⟩) := by
  -- A header is split at its spaces, so none may be inside a word.
  have noSpace : ∀ word ∈ h.headerWords, ' ' ∉ word := by
    simp [Hunk.headerWords, not_mem_rangeText]
  rw [readHeader?, toList_header,
    List.splitOn_intercalate ' ' noSpace (by simp [Hunk.headerWords])]
  simp [Hunk.headerWords, readRange?_rangeText]

/-! ### The machine -/

/-- A machine that applies a diff: the number of old lines it has come past, those that are left,
the new lines it has made, and how many lines of either side the hunk it is in still has to
show. -/
structure Replay where
  passed : Nat
  old : List String
  new : List String
  oldDue : Nat
  newDue : Nat
deriving DecidableEq, Repr

namespace Replay

/-- The machine before the first line. All old lines are left, and none is due. -/
def start (old : List String) : Replay where
  passed := 0
  old := old
  new := []
  oldDue := 0
  newDue := 0

/-- Whether the machine is between two hunks. Then the next line has to be a header. -/
abbrev IsBetween (r : Replay) : Prop :=
  r.oldDue = 0 ∧ r.newDue = 0

/-- Enters the hunk with the given header: copies the old lines in front of it. The header has to
agree with what was made so far. -/
def enter? (r : Replay) (header : String) : Option Replay :=
  match readHeader? header with
  | some (old, new) =>
    let skipped := old.start - r.passed
    if r.passed ≤ old.start ∧ skipped ≤ r.old.length ∧ new.start = r.new.length + skipped then
      some ⟨old.start, r.old.drop skipped, r.new ++ r.old.take skipped, old.length, new.length⟩
    else none
  | none => none

/-- Follows a line inside a hunk. Its first character says whether it is kept, removed or added,
and the hunk must have such a line left. -/
def follow? (r : Replay) (line : String) : Option Replay :=
  match line.toList, r.old with
  | ' ' :: text, here :: rest =>
    if 0 < r.oldDue ∧ 0 < r.newDue ∧ here = String.ofList text then
      some ⟨r.passed + 1, rest, r.new ++ [here], r.oldDue - 1, r.newDue - 1⟩
    else none
  | '-' :: text, here :: rest =>
    if 0 < r.oldDue ∧ here = String.ofList text then
      some ⟨r.passed + 1, rest, r.new, r.oldDue - 1, r.newDue⟩
    else none
  | '+' :: text, rest =>
    if 0 < r.newDue then
      some ⟨r.passed, rest, r.new ++ [String.ofList text], r.oldDue, r.newDue - 1⟩ else none
  | _, _ => none

/-- Takes a shown line, as a header or as a line of a hunk. -/
def step? (r : Replay) (line : String) : Option Replay :=
  if r.IsBetween then r.enter? line else r.follow? line

/-- Takes shown lines and copies the old lines that are left; `none` unless the last hunk is
complete. -/
def run? (r : Replay) (lines : List String) : Option (List String) := do
  let final ← lines.foldlM step? r
  if final.IsBetween then some (final.new ++ final.old) else none

/-- The machine accepts the lines and is `r'` after them. The lemmas below put such facts
together. -/
def Takes (r : Replay) (lines : List String) (r' : Replay) : Prop :=
  lines.foldlM step? r = some r'

/-- No lines leave the machine as it is. -/
theorem takes_nil (r : Replay) : r.Takes [] r := rfl

/-- One line, and then others. -/
theorem Takes.cons {r r' r'' : Replay} {line : String} {lines : List String}
    (h : r.step? line = some r') (h' : r'.Takes lines r'') : r.Takes (line :: lines) r'' := by
  rw [Takes, List.foldlM_cons, h]
  exact h'

/-- Some lines, and then others. -/
theorem Takes.append {r r' r'' : Replay} {first second : List String} (h : r.Takes first r')
    (h' : r'.Takes second r'') : r.Takes (first ++ second) r'' := by
  rw [Takes, List.foldlM_append, show first.foldlM step? r = some r' from h]
  exact h'

/-- A run goes on where the lines that were taken have led. -/
theorem Takes.run? {r r' : Replay} {first : List String} (h : r.Takes first r')
    (second : List String) : r.run? (first ++ second) = r'.run? second := by
  rw [Replay.run?, List.foldlM_append, show first.foldlM step? r = some r' from h]
  rfl

/-- Between two hunks, a run without lines copies what is left. -/
theorem run?_nil (passed : Nat) (old new : List String) :
    run? ⟨passed, old, new, 0, 0⟩ [] = some (new ++ old) := rfl

end Replay

/-- What the lines of a diff make of the old lines; `none` if they do not fit. This is all that a
reader of the diff needs to know. -/
def patch? (shown old : List String) : Option (List String) :=
  (Replay.start old).run? shown

/-! ### From a shown line to a hunk -/

section Lines

variable {passed n m : Nat} {old new : List String}

/-- A kept line is passed on the old side and made on the new one. -/
theorem step?_keep (line : String) :
    Replay.step? ⟨passed, line :: old, new, n + 1, m + 1⟩ (" " ++ line) =
      some ⟨passed + 1, old, new ++ [line], n, m⟩ := by
  simp [Replay.step?, Replay.follow?]

/-- A removed line is passed on the old side. -/
theorem step?_remove (line : String) :
    Replay.step? ⟨passed, line :: old, new, n + 1, m⟩ ("-" ++ line) =
      some ⟨passed + 1, old, new, n, m⟩ := by
  simp [Replay.step?, Replay.follow?]

/-- An added line is made on the new side. -/
theorem step?_add (line : String) :
    Replay.step? ⟨passed, old, new, n, m + 1⟩ ("+" ++ line) =
      some ⟨passed, old, new ++ [line], n, m⟩ := by
  simp [Replay.step?, Replay.follow?]

/-- Kept lines are passed on the old side and made on the new one. By induction on the lines, of
which as many are due. -/
theorem takes_keep (lines : List String) :
    Replay.Takes ⟨passed, lines ++ old, new, lines.length + n, lines.length + m⟩
      (lines.map (" " ++ ·))
      ⟨passed + lines.length, old, new ++ lines, n, m⟩ := by
  induction lines generalizing passed new with
  | nil => simpa using Replay.takes_nil _
  | cons line lines ih =>
    rw [List.length_cons, Nat.add_right_comm, Nat.add_right_comm lines.length 1 m]
    refine .cons (step?_keep line) ?_
    -- The line that was made joins the new lines, and the hypothesis is about these.
    rw [List.append_cons new line lines, ← Nat.add_assoc, Nat.add_right_comm passed]
    exact ih

/-- Removed lines are passed on the old side only. -/
theorem takes_remove (lines : List String) :
    Replay.Takes ⟨passed, lines ++ old, new, lines.length + n, m⟩ (lines.map ("-" ++ ·))
      ⟨passed + lines.length, old, new, n, m⟩ := by
  induction lines generalizing passed with
  | nil => simpa using Replay.takes_nil _
  | cons line lines ih =>
    rw [List.length_cons, Nat.add_right_comm]
    refine .cons (step?_remove line) ?_
    rw [← Nat.add_assoc, Nat.add_right_comm passed]
    exact ih

/-- Added lines are made on the new side only. -/
theorem takes_add (lines : List String) :
    Replay.Takes ⟨passed, old, new, n, lines.length + m⟩ (lines.map ("+" ++ ·))
      ⟨passed, old, new ++ lines, n, m⟩ := by
  induction lines generalizing new with
  | nil => simpa using Replay.takes_nil _
  | cons line lines ih =>
    rw [List.length_cons, Nat.add_right_comm]
    refine .cons (step?_add line) ?_
    rw [List.append_cons new line lines]
    exact ih

/-- An edit is taken, be it kept lines or a change. A change shows what it removes first. -/
theorem takes_edit (edit : Edit) :
    Replay.Takes
      ⟨passed, edit.oldLines ++ old, new, edit.oldLines.length + n, edit.newLines.length + m⟩
      edit.render
      ⟨passed + edit.oldLines.length, old, new ++ edit.newLines, n, m⟩ := by
  cases edit with
  | keep lines => exact takes_keep lines
  | change removed added => exact (takes_remove removed).append (takes_add added)

/-- So are several edits, which is what a hunk has behind its header. -/
theorem takes_edits (edits : List Edit) :
    Replay.Takes
      ⟨passed, oldSide edits ++ old, new, (oldSide edits).length + n, (newSide edits).length + m⟩
      (edits.flatMap Edit.render)
      ⟨passed + (oldSide edits).length, old, new ++ newSide edits, n, m⟩ := by
  induction edits generalizing passed new with
  | nil => simpa using Replay.takes_nil _
  | cons edit edits ih =>
    simp only [oldSide_cons, newSide_cons, List.length_append, List.flatMap_cons,
      List.append_assoc, Nat.add_assoc]
    refine (takes_edit edit).append ?_
    rw [← Nat.add_assoc passed, ← List.append_assoc new]
    exact ih

/-- **A hunk is taken.** The lines between the last hunk and this one are copied. Afterwards
nothing is due, since the header has counted the lines of both sides. -/
theorem takes_hunk (between : List String) (edits : List Edit) :
    Replay.Takes ⟨passed, between ++ oldSide edits ++ old, new, 0, 0⟩
      (Hunk.render ⟨passed + between.length, new.length + between.length, edits⟩)
      ⟨passed + between.length + (oldSide edits).length, old,
        new ++ between ++ newSide edits, 0, 0⟩ := by
  have entered : Replay.step? ⟨passed, between ++ oldSide edits ++ old, new, 0, 0⟩
      (Hunk.header ⟨passed + between.length, new.length + between.length, edits⟩) =
        some ⟨passed + between.length, oldSide edits ++ old, new ++ between,
          (oldSide edits).length, (newSide edits).length⟩ := by
    simp [Replay.step?, Replay.enter?, readHeader?_header]
  refine .cons entered ?_
  simpa only [Nat.add_zero] using takes_edits (n := 0) (m := 0) edits

end Lines

/-! ### All hunks -/

/-- Edits that change nothing have the same lines on both sides. Such edits are not shown. -/
theorem oldSide_eq_newSide {edits : List Edit} (h : edits.any Edit.isChange = false) :
    oldSide edits = newSide edits := by
  induction edits with
  | nil => rfl
  | cons edit edits ih =>
    rw [List.any_cons, Bool.or_eq_false_iff] at h
    cases edit with
    | keep lines => rw [oldSide_cons, newSide_cons, ih h.2]; rfl
    | change removed added => cases h.1

/-- Kept lines between two hunks are those that the first shows, those that none shows and those
that the second shows. There are so many of them that the two ends do not overlap. -/
theorem split_kept {lines : List String} (h : 2 * context < lines.length) :
    ∃ first middle last, lines = first ++ middle ++ last ∧ lines.take context = first ∧
      lastLines context lines = last ∧ first.length = context ∧ last.length = context := by
  have whole : (lines.take (lines.length - context)).take context = lines.take context := by
    rw [List.take_take, Nat.min_eq_left (by omega)]
  refine ⟨lines.take context, (lines.take (lines.length - context)).drop context,
    lastLines context lines, ?_, rfl, rfl, ?_, ?_⟩
  · rw [← whole, List.take_append_drop, lastLines, List.take_append_drop]
  · rw [List.length_take]
    omega
  · rw [lastLines, List.length_drop]
    omega

/-- What gathering edits into hunks keeps for the machine: in front of the hunk that is being
gathered it has old lines `between` to copy, and `tail` are old lines behind the last edit. By
induction on the edits: a change joins the hunk, and kept lines join it or end it. -/
theorem run?_gatherHunks {edits opened : List Edit} {passed i j oldHere newHere : Nat}
    {between made tail : List String} (hi : i = passed + between.length)
    (hj : j = made.length + between.length) (hold : oldHere = i + (oldSide opened).length)
    (hnew : newHere = j + (newSide opened).length) :
    Replay.run? ⟨passed, between ++ oldSide opened ++ oldSide edits ++ tail, made, 0, 0⟩
        ((gatherHunks i j oldHere newHere opened edits).flatMap Hunk.render) =
      some (made ++ between ++ newSide opened ++ newSide edits ++ tail) := by
  induction edits generalizing opened passed i j oldHere newHere between made with
  | nil =>
    rw [gatherHunks]
    split
    · rw [hi, hj, List.flatMap_singleton, ← List.append_nil (Hunk.render _), oldSide_nil,
        List.append_nil, (takes_hunk between opened).run?, Replay.run?_nil, newSide_nil,
        List.append_nil]
    · rename_i same
      rw [Bool.not_eq_true] at same
      rw [List.flatMap_nil, Replay.run?_nil, oldSide_eq_newSide same]
      simp only [oldSide_nil, newSide_nil, List.append_assoc, List.nil_append]
  | cons edit edits ih =>
    cases edit with
    | change removed added =>
      have next := @ih (opened ++ [.change removed added]) passed i j (oldHere + removed.length)
        (newHere + added.length) between made hi hj (by simp [hold, Nat.add_assoc])
        (by simp [hnew, Nat.add_assoc])
      simpa [gatherHunks] using next
    | keep lines =>
      rw [gatherHunks]
      split
      · rename_i long
        obtain ⟨first, middle, last, hlines, htake, hlastLines, hfirst, hlast⟩ := split_kept long
        have hlength : lines.length = context + middle.length + context := by
          rw [hlines, List.length_append, List.length_append, hfirst, hlast]
        rw [htake, hlastLines]
        -- The hunk ends with the first of the kept lines, and those in the middle are copied
        -- before the next.
        have oldParts : between ++ oldSide opened ++ oldSide (.keep lines :: edits) ++ tail =
            between ++ oldSide (opened ++ [.keep first]) ++
              (middle ++ oldSide [.keep last] ++ oldSide edits ++ tail) := by
          simp [hlines]
        have newParts : made ++ between ++ newSide opened ++
            newSide (.keep lines :: edits) ++ tail =
            made ++ between ++ newSide (opened ++ [.keep first]) ++ middle ++
              newSide [.keep last] ++ newSide edits ++ tail := by
          simp [hlines]
        rw [List.flatMap_cons, oldParts, newParts, hi, hj,
          (takes_hunk between (opened ++ [Edit.keep first])).run?]
        apply ih
        all_goals
          simp
          omega
      · have next := @ih (opened ++ [.keep lines]) passed i j (oldHere + lines.length)
          (newHere + lines.length) between made hi hj (by simp [hold, Nat.add_assoc])
          (by simp [hnew, Nat.add_assoc])
        simpa using next

/-- Cutting off the kept lines at the end takes the same lines from both sides. The machine copies
them after the last hunk. -/
theorem exists_tail_trimEnd (edits : List Edit) :
    ∃ tail, oldSide edits = oldSide (trimEnd edits) ++ tail ∧
      newSide edits = newSide (trimEnd edits) ++ tail := by
  fun_induction trimEnd edits with
  | case1 => exact ⟨[], rfl, rfl⟩
  | case2 lines =>
    refine ⟨lines.drop context, ?_, ?_⟩
    · simp
    · simp
  | case3 edit rest _ ih =>
    obtain ⟨tail, hold, hnew⟩ := ih
    refine ⟨tail, ?_, ?_⟩
    · rw [oldSide_cons, oldSide_cons, hold, List.append_assoc]
    · rw [newSide_cons, newSide_cons, hnew, List.append_assoc]

/-- **The hunks of a script make its new lines of its old ones.** The kept lines that are cut off
at the two ends are copied. -/
theorem run?_hunks (edits : List Edit) :
    (Replay.start (oldSide edits)).run? ((hunks edits).flatMap Hunk.render) =
      some (newSide edits) := by
  fun_cases hunks edits with
  | case1 lines rest skipped =>
    obtain ⟨tail, hold, hnew⟩ := exists_tail_trimEnd (.keep (lastLines context lines) :: rest)
    have hskipped : skipped = (lines.take skipped).length := by
      rw [List.length_take]
      omega
    have parts : lines.take skipped ++ lastLines context lines = lines :=
      List.take_append_drop skipped lines
    -- The kept lines that are cut off in front are what is copied before the first hunk.
    have oldParts : oldSide (.keep lines :: rest) = lines.take skipped ++ oldSide [] ++
        oldSide (trimEnd (.keep (lastLines context lines) :: rest)) ++ tail := by
      rw [List.append_assoc, ← hold]
      simp [← List.append_assoc, parts]
    have newParts : newSide (.keep lines :: rest) = [] ++ lines.take skipped ++ newSide [] ++
        newSide (trimEnd (.keep (lastLines context lines) :: rest)) ++ tail := by
      rw [List.append_assoc, ← hnew]
      simp [← List.append_assoc, parts]
    rw [Replay.start, oldParts, newParts]
    refine run?_gatherHunks ?_ ?_ rfl rfl
    · rwa [Nat.zero_add]
    · rwa [List.length_nil, Nat.zero_add]
  | case2 h =>
    obtain ⟨tail, hold, hnew⟩ := exists_tail_trimEnd edits
    have whole := @run?_gatherHunks (trimEnd edits) [] 0 0 0 0 0 [] [] tail rfl rfl rfl rfl
    simpa [Replay.start, hold, hnew] using whole

/-- **The shown hunks are a patch from the old lines to the new ones.** The script leads from one
to the other, and the hunks show all that it changes. -/
theorem patch?_hunks (old new : List String) :
    patch? ((hunks (script old new)).flatMap Hunk.render) old = some new := by
  have whole := run?_hunks (script old new)
  rwa [(sides_script old new).1, (sides_script old new).2] at whole

example : patch? ["@@ -1,2 +1,2 @@", " a", "-b", "+c"] ["a", "b", "d"] =
    some ["a", "c", "d"] := by cbv

/-- A hunk whose header is one line off is refused. -/
example : patch? ["@@ -2,2 +1,2 @@", " a", "-b", "+c"] ["a", "b", "d"] = none := by cbv

/-- There is nothing to show of kept lines alone, however many they are. -/
theorem hunks_keep (lines : List String) : hunks [.keep lines] = [] := by
  -- What is left of them at the ends is too short to be cut in the middle.
  have short : ¬ 2 * context < ((lastLines context lines).take context).length := by
    rw [List.length_take]
    omega
  simp only [hunks, trimEnd, gatherHunks, if_neg short]
  rfl

/-- There are no hunks exactly if there is no difference. Without hunks the patch leaves the old
lines as they are, and equal lines are kept as a whole. -/
theorem hunks_script_eq_nil_iff {old new : List String} :
    hunks (script old new) = [] ↔ old = new := by
  constructor
  · intro none
    have whole := patch?_hunks old new
    rw [none] at whole
    exact Option.some.inj whole
  · rintro rfl
    by_cases empty : old = []
    · rw [empty, script, sharedBlocks_nil]
      rfl
    · rw [script_self empty, hunks_keep]

/-- Of equal lines nothing is shown, not even the names. -/
theorem unified_self (oldName newName : String) (lines : List String) :
    unified oldName newName lines lines = [] := by
  rw [unified, hunks_script_eq_nil_iff.mpr rfl]

/-- Of different lines the names and the hunks are shown. -/
theorem unified_of_ne (oldName newName : String) {old new : List String} (h : old ≠ new) :
    unified oldName newName old new =
      ("--- " ++ oldName) :: ("+++ " ++ newName) ::
        (hunks (script old new)).flatMap Hunk.render := by
  unfold unified
  split
  · rename_i none
    exact absurd (hunks_script_eq_nil_iff.mp none) h
  · rfl

end Tickscript.Diff

namespace Tickscript.Tool.Golden

open Tickscript.Diff Tickscript.Session Tickscript.Text

/-- **A shown difference is a patch.** What is printed about two texts are the line that names the
artifact and the lines `shown`. There are none of these exactly if the texts have the same lines.
Otherwise they name the two sides and go on with hunks, and replaying the hunks on the lines that
were expected makes the actual ones. The replay checks the header of every hunk against the places
it has come to on both sides and every kept or removed line against the expected ones, also where
the lines are so many that the popular ones do not guide the alignment. -/
theorem showDifference_patches (name file expected actual : String) :
    ∃ shown : List String,
      (∀ w : Workspace, (showDifference name file expected actual).run w =
        .ok () { w with
          stdout := w.stdout ++
            String.join ((("[mismatch][" ++ name ++ "] " ++ file ++ " differs") :: shown).map
              (· ++ "\n")) }) ∧
      (shown = [] ↔ linesOf expected = linesOf actual) ∧
      (linesOf expected ≠ linesOf actual → ∃ hunkLines, hunkLines ≠ [] ∧
        shown = ("--- golden/" ++ file) :: ("+++ fresh/" ++ file) :: hunkLines ∧
        patch? hunkLines (linesOf expected) = some (linesOf actual)) := by
  have golden : "--- " ++ ("golden/" ++ file) = "--- golden/" ++ file := by
    rw [← String.append_assoc]
    rfl
  have fresh : "+++ " ++ ("fresh/" ++ file) = "+++ fresh/" ++ file := by
    rw [← String.append_assoc]
    rfl
  refine ⟨unified ("golden/" ++ file) ("fresh/" ++ file) (linesOf expected) (linesOf actual),
    fun w => rfl, ?_, ?_⟩
  · constructor
    · intro none
      by_contra differ
      rw [unified_of_ne _ _ differ] at none
      cases none
    · intro same
      rw [same, unified_self]
  · intro differ
    rw [unified_of_ne _ _ differ, golden, fresh]
    refine ⟨_, ?_, rfl, patch?_hunks _ _⟩
    -- A patch without lines leaves the expected lines as they are.
    intro none
    have same := patch?_hunks (linesOf expected) (linesOf actual)
    rw [none] at same
    exact differ (Option.some.inj same)

end Tickscript.Tool.Golden
