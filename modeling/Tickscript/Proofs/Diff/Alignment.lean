import Mathlib
import Tickscript.Diff

/-!
# `Tickscript.Proofs.Diff.Alignment`: a script leads from the old lines to the new ones

The alignment is found by a search with a rule of thumb: popular lines never start a run. Nothing
here depends on which run the search prefers. Whatever it finds is a run that both sides share
(`fits_longestBlock`), and runs that are shared in order are all that a script needs (`Aligned`,
`sides_scriptOf`).

Two lists that are equal are the one place where the preference matters. The search must not be
led away from the diagonal by a line that occurs twice, and it is not, because it takes the
earliest of the longest runs. From a run on the diagonal the extension then reaches both ends,
over popular lines too (`longestBlock_self`).
-/

set_option autoImplicit false

namespace Tickscript.Diff

variable {guides : String → Bool} {old new : List String}

/-! ### The search, step by step -/

/-- What holds of the best run so far at each place of a row holds of the best run at its end. The
step is for one place, with the run that starts there. -/
theorem bestInRow_induction {P : Nat → Block → Prop} {i : Nat} {row : List String}
    (step : ∀ j best, j < new.length → P j best →
      P (j + 1) (best.better ⟨i, j, runLength guides row (new.drop j)⟩))
    {best : Block} (start : P 0 best) : P new.length (bestInRow guides i row 0 new best) := by
  -- The row is walked from its place `j` on, where `rest` are the lines from there on.
  have key : ∀ (rest : List String) (j : Nat) (best : Block),
      new.drop j = rest → j + rest.length = new.length →
      P j best → P new.length (bestInRow guides i row j rest best) := by
    intro rest
    induction rest with
    | nil =>
      intro j best _ hlength h
      rwa [show new.length = j by simpa using hlength.symm]
    | cons line rest ih =>
      intro j best hrest hlength h
      rw [List.length_cons] at hlength
      have next : new.drop (j + 1) = rest := by
        rw [← List.drop_drop, hrest]
        rfl
      rw [bestInRow, ← hrest]
      exact ih (j + 1) _ next (by omega) (step j best (by omega) h)
  exact key new 0 best rfl (Nat.zero_add _) start

/-- What holds of the best run so far at the start of each row holds of the best run of all. The
two inductions are used together, one inside of the other. -/
theorem bestRun_induction {P : Nat → Block → Prop}
    (step : ∀ i best, i < old.length → P i best →
      P (i + 1) (bestInRow guides i (old.drop i) 0 new best))
    {best : Block} (start : P 0 best) : P old.length (bestRun guides new 0 old best) := by
  have key : ∀ (rest : List String) (i : Nat) (best : Block),
      old.drop i = rest → i + rest.length = old.length →
      P i best → P old.length (bestRun guides new i rest best) := by
    intro rest
    induction rest with
    | nil =>
      intro i best _ hlength h
      rwa [show old.length = i by simpa using hlength.symm]
    | cons line rest ih =>
      intro i best hrest hlength h
      rw [List.length_cons] at hlength
      have next : old.drop (i + 1) = rest := by
        rw [← List.drop_drop, hrest]
        rfl
      rw [bestRun, ← hrest]
      exact ih (i + 1) _ next (by omega) (step i best (by omega) h)
  exact key old 0 best rfl (Nat.zero_add _) start

/-! ### Runs that both sides share -/

/-- A block gives the places and the number of lines that stand on both sides. The lines may be
none. -/
def Block.Fits (b : Block) (old new : List String) : Prop :=
  ∃ lines before after before' after', old = before ++ lines ++ after ∧
    new = before' ++ lines ++ after' ∧ b = ⟨before.length, before'.length, lines.length⟩

/-- The lines of a run are the first on both sides. By induction on the old lines; a line that
does not guide ends the run as a line does that differs. -/
theorem exists_run (guides : String → Bool) (old new : List String) :
    ∃ lines after after', old = lines ++ after ∧ new = lines ++ after' ∧
      lines.length = runLength guides old new := by
  induction old generalizing new with
  | nil => exact ⟨[], [], new, rfl, rfl, by rw [runLength]; rfl; nofun⟩
  | cons a old ih =>
    cases new with
    | nil => exact ⟨[], a :: old, [], rfl, rfl, rfl⟩
    | cons b new =>
      rw [runLength]
      split
      · rename_i same
        obtain ⟨lines, after, after', hold, hnew, hlength⟩ := ih new
        have equal : a = b := by
          simp only [Bool.and_eq_true, decide_eq_true_eq] at same
          exact same.1
        refine ⟨a :: lines, after, after', ?_, ?_, ?_⟩
        · rw [hold, List.cons_append]
        · rw [hnew, equal, List.cons_append]
        · rw [List.length_cons, hlength]
      · exact ⟨[], a :: old, b :: new, rfl, rfl, rfl⟩

/-- A run from any two places fits, since the lines in front of it are what was dropped. -/
theorem fits_runLength {i j : Nat} (hi : i ≤ old.length) (hj : j ≤ new.length) :
    Block.Fits ⟨i, j, runLength guides (old.drop i) (new.drop j)⟩ old new := by
  obtain ⟨lines, after, after', hold, hnew, hlength⟩ :=
    exists_run guides (old.drop i) (new.drop j)
  refine ⟨lines, old.take i, after, new.take j, after', ?_, ?_, ?_⟩
  · rw [List.append_assoc, ← hold, List.take_append_drop]
  · rw [List.append_assoc, ← hnew, List.take_append_drop]
  · rw [List.length_take_of_le hi, List.length_take_of_le hj, hlength]

/-- Of two blocks that fit, the better one fits. -/
theorem Block.Fits.better {best next : Block} (h : best.Fits old new)
    (hnext : next.Fits old new) : (best.better next).Fits old new := by
  unfold Block.better
  split
  · exact hnext
  · exact h

/-- The best run fits, because every run does that is compared with it. -/
theorem fits_bestRun (guides : String → Bool) (old new : List String) :
    (bestRun guides new 0 old ⟨0, 0, 0⟩).Fits old new := by
  refine bestRun_induction (P := fun _ best => best.Fits old new) ?_
    ⟨[], [], old, [], new, rfl, rfl, rfl⟩
  intro i best hi h
  refine bestInRow_induction (P := fun _ best => best.Fits old new) ?_ h
  intro j best hj h
  exact h.better (fits_runLength (Nat.le_of_lt hi) (Nat.le_of_lt hj))

/-- What is in front of a run in three parts. -/
theorem take_of_split (before lines after : List String) :
    (before ++ lines ++ after).take before.length = before := by
  rw [List.append_assoc, List.take_left]

/-- What is behind a run in three parts. -/
theorem drop_of_split (before lines after : List String) :
    (before ++ lines ++ after).drop (before.length + lines.length) = after := by
  rw [← List.length_append, List.drop_left]

/-- What is taken in on either end of a run is shared too. Here all lines count, popular ones
among them. -/
theorem Block.Fits.extend {run : Block} (h : run.Fits old new) :
    (run.extend old new).Fits old new := by
  obtain ⟨lines, before, after, before', after', rfl, rfl, rfl⟩ := h
  obtain ⟨back, far, far', hback, hback', hbackLength⟩ :=
    exists_run (fun _ => true) before.reverse before'.reverse
  obtain ⟨ahead, beyond, beyond', rfl, rfl, haheadLength⟩ :=
    exists_run (fun _ => true) after after'
  -- Backwards the run is found on the reversed lists.
  have hbefore : before = far.reverse ++ back.reverse := by
    rw [← List.reverse_append, ← hback, List.reverse_reverse]
  have hbefore' : before' = far'.reverse ++ back.reverse := by
    rw [← List.reverse_append, ← hback', List.reverse_reverse]
  refine ⟨back.reverse ++ lines ++ ahead, far.reverse, beyond, far'.reverse, beyond', ?_, ?_, ?_⟩
  · rw [hbefore]
    simp only [List.append_assoc]
  · rw [hbefore']
    simp only [List.append_assoc]
  · have place : before.length = far.length + back.length := by
      simp only [hbefore, List.length_append, List.length_reverse]
    have place' : before'.length = far'.length + back.length := by
      simp only [hbefore', List.length_append, List.length_reverse]
    simp only [Block.extend, take_of_split, drop_of_split, ← hbackLength, ← haheadLength,
      List.length_append, List.length_reverse, Block.mk.injEq, and_true]
    omega

/-- **Whatever the search finds is shared.** Which lines guide it makes no difference to this. -/
theorem fits_longestBlock (guides : String → Bool) (old new : List String) :
    (longestBlock guides old new).Fits old new :=
  (fits_bestRun guides old new).extend

/-! ### Runs in order -/

/-- Blocks that both sides share one after the other, from the lines `i` and `j` on. What is in
front of a block and behind the last one need not be shared. -/
inductive Aligned : (i j : Nat) → (old new : List String) → List Block → Prop where
  | nil (i j : Nat) (old new : List String) : Aligned i j old new []
  | cons {i j : Nat} (before before' lines : List String) {after after' : List String}
      {blocks : List Block}
      (rest : Aligned (i + before.length + lines.length)
        (j + before'.length + lines.length) after after' blocks) :
      Aligned i j (before ++ lines ++ after) (before' ++ lines ++ after')
        (⟨i + before.length, j + before'.length, lines.length⟩ :: blocks)

/-- Two alignments with a run between them are one. By induction on the first alignment. -/
theorem Aligned.join {i j : Nat} {before before' : List String} {first : List Block}
    (h : Aligned i j before before' first) (lines : List String) {after after' : List String}
    {second : List Block}
    (rest : Aligned (i + before.length + lines.length)
      (j + before'.length + lines.length) after after' second) :
    Aligned i j (before ++ lines ++ after) (before' ++ lines ++ after')
      (first ++ ⟨i + before.length, j + before'.length, lines.length⟩ :: second) := by
  induction h with
  | nil i j old new => exact .cons old new lines rest
  | @cons i j early early' run middle middle' blocks _ ih =>
    have place : i + (early ++ run ++ middle).length =
        i + early.length + run.length + middle.length := by
      simp only [List.length_append]
      omega
    have place' : j + (early' ++ run ++ middle').length =
        j + early'.length + run.length + middle'.length := by
      simp only [List.length_append]
      omega
    rw [place, place'] at rest ⊢
    have whole := Aligned.cons (i := i) (j := j) early early' run (ih rest)
    simpa only [List.append_assoc, List.cons_append] using whole

/-- **The shared runs are in order.** The recursion is that of the search: the longest run, and
then what is in front of it and what is behind it. -/
theorem aligned_sharedBlocks (guides : String → Bool) (i j : Nat) (old new : List String) :
    Aligned i j old new (sharedBlocks guides i j old new) := by
  fun_induction sharedBlocks guides i j old new with
  | case1 i j old new run bounds ihBefore ihAfter =>
    obtain ⟨lines, before, after, before', after', hold, hnew, hrun⟩ :=
      fits_longestBlock guides old new
    have hrun : run = ⟨before.length, before'.length, lines.length⟩ := hrun
    -- The three parts of either side are what is in front of the run, the run, and what is behind
    -- it.
    simp only [hrun, hold, hnew, take_of_split, drop_of_split] at ihBefore ihAfter ⊢
    exact ihBefore.join lines ihAfter
  | case2 i j old new run bounds => exact .nil i j old new

/-! ### The two sides of a script -/

/-- The lines that a script starts from: those that it keeps and those that it removes. -/
def oldSide (script : List Edit) : List String :=
  script.flatMap Edit.oldLines

/-- The lines that a script leads to: those that it keeps and those that it adds. -/
def newSide (script : List Edit) : List String :=
  script.flatMap Edit.newLines

attribute [simp] Edit.oldLines Edit.newLines

/-- An empty script starts from no lines. -/
@[simp] theorem oldSide_nil : oldSide [] = [] := rfl

/-- An empty script leads to no lines. -/
@[simp] theorem newSide_nil : newSide [] = [] := rfl

/-- The old lines of the first edit come first. -/
@[simp] theorem oldSide_cons (edit : Edit) (script : List Edit) :
    oldSide (edit :: script) = edit.oldLines ++ oldSide script := rfl

/-- The new lines of the first edit come first. -/
@[simp] theorem newSide_cons (edit : Edit) (script : List Edit) :
    newSide (edit :: script) = edit.newLines ++ newSide script := rfl

/-- The old lines of two scripts one behind the other. -/
@[simp] theorem oldSide_append (first second : List Edit) :
    oldSide (first ++ second) = oldSide first ++ oldSide second :=
  List.flatMap_append

/-- The new lines of two scripts one behind the other. -/
@[simp] theorem newSide_append (first second : List Edit) :
    newSide (first ++ second) = newSide first ++ newSide second :=
  List.flatMap_append

/-- A change in front of a script adds the removed lines to the old side, also where it is left
out because it is empty. -/
@[simp] theorem oldSide_consChange (removed added : List String) (script : List Edit) :
    oldSide (consChange removed added script) = removed ++ oldSide script := by
  unfold consChange
  split
  · rename_i nothing
    simp only [Bool.and_eq_true, List.isEmpty_iff] at nothing
    rw [nothing.1, List.nil_append]
  · rfl

/-- A change in front of a script adds its new lines to the new side. -/
@[simp] theorem newSide_consChange (removed added : List String) (script : List Edit) :
    newSide (consChange removed added script) = added ++ newSide script := by
  unfold consChange
  split
  · rename_i nothing
    simp only [Bool.and_eq_true, List.isEmpty_iff] at nothing
    rw [nothing.2, List.nil_append]
  · rfl

/-- Kept lines in front of a script are added to the old side, also where they are joined with
kept lines that follow. -/
@[simp] theorem oldSide_consKeep (lines : List String) (script : List Edit) :
    oldSide (consKeep lines script) = lines ++ oldSide script := by
  fun_cases consKeep lines script with
  | case1 more script => simp
  | case2 => rfl

/-- Kept lines in front of a script are added to the new side. -/
@[simp] theorem newSide_consKeep (lines : List String) (script : List Edit) :
    newSide (consKeep lines script) = lines ++ newSide script := by
  fun_cases consKeep lines script with
  | case1 more script => simp
  | case2 => rfl

/-- A script that follows from shared runs has all the lines of either side. By induction on the
alignment. -/
theorem Aligned.sides {i j : Nat} {blocks : List Block} (h : Aligned i j old new blocks) :
    oldSide (scriptOf i j old new blocks) = old ∧
      newSide (scriptOf i j old new blocks) = new := by
  induction h with
  | nil i j old new => simp [scriptOf]
  | @cons i j before before' lines after after' blocks _ ih =>
    -- Cut at the run, either side falls into the three parts it was put together from.
    have run : (before ++ lines ++ after).drop before.length = lines ++ after := by
      rw [List.append_assoc, List.drop_left]
    rw [scriptOf]
    simp only [Nat.add_sub_cancel_left, take_of_split, drop_of_split, run, List.take_left,
      oldSide_consChange, newSide_consChange, oldSide_consKeep, newSide_consKeep, ih.1, ih.2]
    simp only [List.append_assoc, and_self]

/-- **The script leads from the old lines to the new ones.** Nothing is lost on either side,
whatever the search has preferred. -/
theorem sides_script (old new : List String) :
    oldSide (script old new) = old ∧ newSide (script old new) = new :=
  (aligned_sharedBlocks _ 0 0 old new).sides

/-! ### Equal lists -/

/-- A run that starts on two different lines of a list is no longer than the list's own run from
either of them. By induction on the first list. -/
theorem runLength_le_self (guides : String → Bool) (old new : List String) :
    runLength guides old new ≤ runLength guides old old ∧
      runLength guides old new ≤ runLength guides new new := by
  induction old generalizing new with
  | nil => simp [runLength]
  | cons a old ih =>
    cases new with
    | nil => simp [runLength]
    | cons b new =>
      simp only [runLength]
      split
      · rename_i same
        simp only [Bool.and_eq_true, decide_eq_true_eq] at same
        have longer := ih new
        simp only [same.1, same.2, decide_true, Bool.and_self, if_true]
        omega
      · simp

/-- If every line guides, the run of a list with itself is all of it. -/
theorem runLength_self (lines : List String) :
    runLength (fun _ => true) lines lines = lines.length := by
  induction lines with
  | nil => rfl
  | cons line lines ih => simp [runLength, ih]

/-- The run of a list with itself that starts with line `i` on both sides. It need not be the rest
of the list, as a popular line ends it. -/
def ownRun (guides : String → Bool) (lines : List String) (i : Nat) : Nat :=
  runLength guides (lines.drop i) (lines.drop i)

/-- The search of a list in itself has come to the place `(i, j)` and its best run is on the
diagonal. The runs on the diagonal above row `i` have been seen, and the row's own once its place
is passed. -/
structure OnDiagonal (guides : String → Bool) (lines : List String) (i j : Nat)
    (best : Block) : Prop where
  diagonal : best.old = best.new
  above : ∀ k < i, ownRun guides lines k ≤ best.size
  passed : i < j → ownRun guides lines i ≤ best.size

namespace OnDiagonal

variable {lines : List String} {i j : Nat} {best : Block}

/-- Only a run on the diagonal is better than what was seen. A run off it is no longer than the
row's own if the place of that is passed, and otherwise no longer than the one above that starts
with the same line of the new side. -/
theorem better (h : OnDiagonal guides lines i j best) :
    OnDiagonal guides lines i (j + 1)
      (best.better ⟨i, j, runLength guides (lines.drop i) (lines.drop j)⟩) := by
  have shorter := runLength_le_self guides (lines.drop i) (lines.drop j)
  rw [← ownRun, ← ownRun] at shorter
  unfold Block.better
  split
  · rename_i longer
    dsimp only at longer
    have here : i = j := by
      rcases Nat.lt_trichotomy i j with before | here | after
      · have seen := h.passed before
        omega
      · exact here
      · have seen := h.above j after
        omega
    subst here
    exact ⟨rfl, fun k hk => Nat.le_trans (h.above k hk) (Nat.le_of_lt longer),
      fun _ => Nat.le_refl _⟩
  · rename_i notLonger
    dsimp only at notLonger
    refine ⟨h.diagonal, h.above, ?_⟩
    intro hij
    rcases Nat.lt_succ_iff_lt_or_eq.mp hij with before | here
    · exact h.passed before
    · subst here
      exact Nat.not_lt.mp notLonger

/-- At the end of a row its own run has been seen, so it counts among those above the next row. -/
theorem nextRow (h : OnDiagonal guides lines i j best) (hij : i < j) :
    OnDiagonal guides lines (i + 1) 0 best := by
  refine ⟨h.diagonal, ?_, fun none => absurd none (Nat.not_lt_zero _)⟩
  intro k hk
  rcases Nat.lt_succ_iff_lt_or_eq.mp hk with before | here
  · exact h.above k before
  · rw [here]
    exact h.passed hij

end OnDiagonal

/-- Between a list and itself the search stays on the diagonal. The invariant is kept by each
place of a row and by each row. -/
theorem onDiagonal_bestRun (guides : String → Bool) (lines : List String) :
    OnDiagonal guides lines lines.length 0 (bestRun guides lines 0 lines ⟨0, 0, 0⟩) := by
  have start : OnDiagonal guides lines 0 0 ⟨0, 0, 0⟩ :=
    ⟨rfl, fun k none => absurd none (Nat.not_lt_zero k),
      fun none => absurd none (Nat.lt_irrefl 0)⟩
  refine bestRun_induction (P := fun i best => OnDiagonal guides lines i 0 best) ?_ start
  intro i best hi h
  have row :=
    bestInRow_induction (P := OnDiagonal guides lines i) (fun j best _ hrow => hrow.better) h
  exact row.nextRow hi

/-- **The run that a list shares with itself is all of it.** The best run is on the diagonal, so
what is around it is the same on both sides, and the extension takes it in. -/
theorem longestBlock_self (guides : String → Bool) (lines : List String) :
    longestBlock guides lines lines = ⟨0, 0, lines.length⟩ := by
  obtain ⟨run, before, after, before', after', hold, hnew, hrun⟩ :=
    fits_bestRun guides lines lines
  have diagonal : before.length = before'.length := by
    have h := (onDiagonal_bestRun guides lines).diagonal
    rwa [hrun] at h
  have same : before = before' ∧ run ++ after = run ++ after' := by
    refine List.append_inj ?_ diagonal
    rw [← List.append_assoc, ← List.append_assoc, ← hold, ← hnew]
  obtain ⟨rfl, rest⟩ := same
  obtain rfl := List.append_cancel_left rest
  rw [longestBlock, hrun, hold]
  simp only [Block.extend, take_of_split, drop_of_split, runLength_self, List.length_reverse,
    Nat.sub_self, List.length_append]

/-- With no old lines nothing is shared. -/
theorem sharedBlocks_nil (guides : String → Bool) (i j : Nat) (new : List String) :
    sharedBlocks guides i j [] new = [] := by
  rw [sharedBlocks]
  refine dif_neg ?_
  rintro ⟨pos, inside⟩
  rw [List.length_nil] at inside
  omega

/-- **Nothing changes between a list and itself.** The one run leaves nothing in front of it and
nothing behind. -/
theorem script_self {lines : List String} (h : lines ≠ []) :
    script lines lines = [.keep lines] := by
  have pos : 0 < lines.length := List.length_pos_iff.mpr h
  have blocks : sharedBlocks (! isPopular lines ·) 0 0 lines lines = [⟨0, 0, lines.length⟩] := by
    rw [sharedBlocks, longestBlock_self]
    simp only [pos, Nat.zero_add, Nat.le_refl, and_self, dite_true, List.take_zero,
      List.drop_length, sharedBlocks_nil, List.nil_append]
  rw [script, blocks]
  simp [scriptOf, consChange, consKeep]

end Tickscript.Diff
