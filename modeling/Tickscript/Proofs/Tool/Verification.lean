import Mathlib
import Tickscript.Proofs.Options.Flags
import Tickscript.Proofs.Tool.Artifacts

/-!
# `Tickscript.Proofs.Tool.Verification`: generating and then verifying

What `golden` has generated it verifies: a second run with the same folder, cases and ticks, and
with `--verify`, finds no difference and ends with success (`outcome_verify_of_generated`). This
holds with `--check-listing` and `--fail-fast` or without them.

There is one condition on the tree. A schedule in the folder of a case that has none would not be
written, nor removed, by generation, and verification would run the case with it.

Cases are generated one after the other in folders side by side. `allStored_of_generateAll`
carries the artifacts of each case over the ones that follow, and `verifyAll_run` reads them again
in the same order.
-/

set_option autoImplicit false

namespace Tickscript

namespace Session

variable {α : Type}

/-- A session that does not look at the workspace, and can only give `a`. It gives `a` in every
workspace, or it stops in the same way in all of them. -/
def IsSettled (s : Session α) (a : α) : Prop :=
  (∀ w, s.run w = .ok a w) ∨ ∃ stop, ∀ w, s.run w = .error stop w

/-- If such a session succeeds once, it always does. So what the first run has found is found by
the second, on another tree. -/
theorem IsSettled.run_of_ok {s : Session α} {a b : α} {w after : Workspace} (h : IsSettled s a)
    (hok : s.run w = .ok b after) : ∀ v, s.run v = .ok a v := by
  rcases h with h | ⟨stop, h⟩
  · exact h
  · rw [h w] at hok
    cases hok

/-- A session has ended well exactly if its run has. -/
theorem outcome_eq_none_iff {s : Session Unit} {tree : FileTree} {w : Workspace} :
    s.outcome tree = ⟨none, w⟩ ↔ s.run { tree } = .ok () w := by
  unfold outcome
  cases s.run { tree } with
  | ok a after => simp
  | error stop after => simp

end Session

namespace Tool.Golden

open Tickscript.Session Location FileTree

variable {root : String} {folder : Location} {ticks : Option (Option Int)} {w after : Workspace}

/-! ### The cases -/

/-- A file of the project is outside the folders of the cases, if it does not have the name of an
artifact. -/
theorem isOutside_examples {name : String} (h : IsName name) (hname : name ∉ artifactNames) :
    IsOutside ["examples", name] :=
  ⟨["examples"], name, rfl, .down (.ups 0) (by decide), h, hname⟩

/-- What a case needs so that generation is about its own folder only.

- `name`: its name is that of a folder;
- `source` and `schedule`: the files that it reads are no artifacts of any case. -/
structure Case.WellPlaced (c : Case) : Prop where
  name : IsName c.name
  source : IsOutside c.source
  schedule : ∀ location ∈ c.schedule, IsOutside location

/-- The cases of the tool are well placed. They are looked at one by one. -/
theorem wellPlaced_of_mem_allCases {c : Case} (h : c ∈ allCases) : c.WellPlaced := by
  have plain : ∀ {name source : String}, IsName name → IsName source → source ∉ artifactNames →
      Case.WellPlaced { name := name, source := ["examples", source] } := by
    intro name source hname hsource outside
    exact ⟨hname, isOutside_examples hsource outside, nofun⟩
  simp only [allCases, List.mem_cons, List.not_mem_nil, or_false] at h
  rcases h with rfl | rfl | rfl | rfl | rfl
  · exact plain (by decide) (by decide) (by decide)
  · exact plain (by decide) (by decide) (by decide)
  · refine ⟨by decide, isOutside_examples (by decide) (by decide), ?_⟩
    intro location hlocation
    cases hlocation
    exact isOutside_examples (by decide) (by decide)
  · exact plain (by decide) (by decide) (by decide)
  · exact plain (by decide) (by decide) (by decide)

/-! ### Runs over cases -/

/-- All cases are stored, each in its folder. The text is what their compilations have to say, in
order. -/
inductive AllStored (root : String) (folder : Location) (ticks : Option (Option Int))
    (t : FileTree) : List Case → String → Prop where
  | nil : AllStored root folder ticks t [] ""
  | cons {c : Case} {rest : List Case} {a : Artifacts} {count : Int} {notes : String}
      (hticks : ticks.getD (some c.ticks) = some count)
      (stored : a.Stored root (folder ++ [c.name]) c count t)
      (others : AllStored root folder ticks t rest notes) :
      AllStored root folder ticks t (c :: rest) (noticesText a.source false ++ notes)

/-- The ticks of a case are those of the request, or its own if the request has none. -/
theorem ticksFor_run {r : Request} {c : Case} {count : Int}
    (h : r.ticks.getD (some c.ticks) = some count) (w : Workspace) :
    (r.ticksFor c).run w = .ok count w := by
  rw [Request.ticksFor, h]
  rfl

/-- Ticks that were found are these, and looking for them changes nothing. -/
theorem ticks_of_ticksFor {r : Request} {c : Case} {count : Int}
    (h : (r.ticksFor c).run w = .ok count after) :
    r.ticks.getD (some c.ticks) = some count ∧ after = w := by
  unfold Request.ticksFor at h
  cases hticks : r.ticks.getD (some c.ticks) with
  | none =>
    rw [hticks] at h
    cases h
  | some given =>
    rw [hticks] at h
    cases h
    exact ⟨rfl, rfl⟩

/-- The line that says which case is verified. It is shown before anything is compared. -/
def verifyLine (c : Case) : String :=
  "[verify] " ++ c.name ++ "\n"

/-- **Stored cases are verified**, with the listing or without it. By induction on the cases; the
notices of their compilations come in the same order. -/
theorem verifyAll_run {r : Request} (hfolder : Proper r.folder) {cases : List Case}
    {notes : String} (placed : ∀ c ∈ cases, c.WellPlaced)
    (h : AllStored r.root r.folder r.ticks w.tree cases notes) :
    (verifyAll r true cases).run w =
      .ok true { w with
        stdout := w.stdout ++ String.join (cases.map verifyLine)
        stderr := w.stderr ++ notes } := by
  induction cases generalizing w notes with
  | nil =>
    cases h
    simp [verifyAll, EStateM.run, pure, EStateM.pure]
  | cons c rest ih =>
    cases h with
    | @cons _ _ a count notes hticks stored others =>
      have base : Proper (r.folder ++ [c.name]) :=
        .down hfolder (placed c List.mem_cons_self).name
      have printed : (printOut ("[verify] " ++ c.name ++ "\n")).run w =
          .ok () { w with stdout := w.stdout ++ verifyLine c } := rfl
      have verified := verifyCase_run (w := { w with stdout := w.stdout ++ verifyLine c }) base
        stored r.withListing
      rw [verifyAll, run_bind_of_ok (ticksFor_run hticks w), run_bind_of_ok printed,
        run_bind_of_ok verified]
      -- The case agreed, so the run goes on, whether or not it would stop at a difference.
      have later := ih (fun d hd => placed d (List.mem_cons_of_mem _ hd)) others
        (w := { w with
          stdout := w.stdout ++ verifyLine c
          stderr := w.stderr ++ noticesText a.source false })
      refine later.trans ?_
      simp [String.append_assoc]

/-- **Generated cases are stored.** The last part says that generation leaves other cases alone;
it carries the first case of a list over the rest. The induction is on the cases, from any tree in
which no case finds a schedule of another. -/
theorem allStored_of_generateAll {r : Request} (hfolder : Proper r.folder) {cases : List Case}
    (placed : ∀ c ∈ cases, c.WellPlaced) (distinct : (cases.map Case.name).Nodup)
    (habsent : ∀ c ∈ cases, c.schedule = none →
      w.tree.isPresent (r.folder ++ [c.name] ++ ["schedule.txt"]) = false)
    (h : (generateAll r cases).run w = .ok () after) :
    (∃ notes, AllStored r.root r.folder r.ticks after.tree cases notes ∧
      after.stderr = w.stderr ++ notes) ∧
      ∀ (a : Artifacts) (c : Case) (count : Int), c.WellPlaced → c.name ∉ cases.map Case.name →
        a.Stored r.root (r.folder ++ [c.name]) c count w.tree →
        a.Stored r.root (r.folder ++ [c.name]) c count after.tree := by
  induction cases generalizing w with
  | nil =>
    cases h
    exact ⟨⟨"", .nil, String.append_empty.symm⟩, fun a c count _ _ stored => stored⟩
  | cons c rest ih =>
    obtain ⟨notRest, distinctRest⟩ := List.nodup_cons.mp distinct
    have apart : ∀ {d : Case}, d.name ≠ c.name → r.folder ++ [c.name] ≠ r.folder ++ [d.name] := by
      intro d hd same
      exact hd (List.singleton_inj.mp (List.append_cancel_left same)).symm
    have sameLength :
        ∀ d : Case, (r.folder ++ [c.name]).length = (r.folder ++ [d.name]).length := by
      intro d
      rw [List.length_append, List.length_append]
      rfl
    obtain ⟨count, _, hcount, h⟩ := run_bind_eq_ok h
    obtain ⟨hticks, same⟩ := ticks_of_ticksFor hcount
    rw [same] at h
    obtain ⟨_, printed, hprinted, h⟩ := run_bind_eq_ok h
    obtain ⟨_, generated, hgenerated, hrest⟩ := run_bind_eq_ok h
    have unchanged : printed.tree = w.tree ∧ printed.stderr = w.stderr := by
      cases hprinted
      exact ⟨rfl, rfl⟩
    rw [← unchanged.1] at habsent
    rw [← unchanged.1, ← unchanged.2]
    have here := placed c List.mem_cons_self
    obtain ⟨a, stored, left⟩ :=
      stored_of_generateCase (.down hfolder here.name) here.source here.schedule
        (habsent c List.mem_cons_self) hgenerated
    -- The first case has written to its own folder only, so the schedules of the others are still
    -- absent.
    have absentRest : ∀ d ∈ rest, d.schedule = none →
        generated.tree.isPresent (r.folder ++ [d.name] ++ ["schedule.txt"]) = false := by
      intro d hd hnone
      have different : d.name ≠ c.name := by
        intro same
        exact notRest (same ▸ List.mem_map_of_mem hd)
      refine left.grows.isPresent ?_ (fun name _ => concat_ne_concat (apart different) _ name)
        (habsent d (List.mem_cons_of_mem _ hd) hnone)
      rw [sameLength d]
      exact length_lt_concat _ _
    obtain ⟨⟨notes, others, stderr⟩, kept⟩ :=
      ih (fun d hd => placed d (List.mem_cons_of_mem _ hd)) distinctRest absentRest hrest
    refine ⟨⟨_, .cons hticks (kept a c count here notRest stored) others, ?_⟩, ?_⟩
    · rw [stderr, left.stderr, String.append_assoc]
    · intro b d other hd notMem hstored
      rw [List.map_cons, List.mem_cons, not_or] at notMem
      have first := hstored.grows (.down hfolder hd.name) hd.source (fun _ h => h) left.grows
        (apart notMem.1) (sameLength d)
      exact kept b d other hd notMem.2 first

/-- **Generation stays inside.** With its folder inside the working folder, generation changes no
file outside, whatever the cases read. By induction on the cases, each of which writes to its own
folder. -/
theorem get?_of_generateAll {r : Request} (hfolder : Proper r.folder)
    (inside : r.folder.isInside = true) {cases : List Case} (placed : ∀ c ∈ cases, c.WellPlaced)
    (h : (generateAll r cases).run w = .ok () after) {other : Location}
    (outside : other.isInside = false) :
    after.tree.files.get? other = w.tree.files.get? other := by
  induction cases generalizing w with
  | nil =>
    cases h
    rfl
  | cons c rest ih =>
    obtain ⟨count, _, hcount, h⟩ := run_bind_eq_ok h
    rw [(ticks_of_ticksFor hcount).2] at h
    obtain ⟨_, printed, hprinted, h⟩ := run_bind_eq_ok h
    obtain ⟨_, generated, hgenerated, hrest⟩ := run_bind_eq_ok h
    have here := placed c List.mem_cons_self
    obtain ⟨a, -, left, -⟩ :=
      made_of_generateCase (.down hfolder here.name) here.source here.schedule hgenerated
    have first :=
      left.grows.get?_of_outside (isInside_concat inside here.name) (by decide) outside
    rw [ih (fun d hd => placed d (List.mem_cons_of_mem _ hd)) hrest, first]
    cases hprinted
    rfl

/-! ### Options -/

/-- The folder that the options ask for. The last of several counts, and without any it is
`golden`. -/
def chosenFolder (args : Arguments) : Location :=
  (PathName.ofText (((args.value? "out-dir").getD (some "golden")).getD "")).target

/-- The cases that the options ask for, in the order of the tool. Without names these are all of
them. -/
def chosenCases (args : Arguments) : List Case :=
  let names := (args.values "only").filterMap id
  if names.isEmpty then allCases else allCases.filter (names.contains ·.name)

/-- Two command lines that ask for the same folder, cases and ticks. In other options they may
differ. -/
structure SameOptions (args again : Arguments) : Prop where
  folder : again.values "out-dir" = args.values "out-dir"
  cases : again.values "only" = args.values "only"
  ticks : again.values "ticks" = args.values "ticks"

/-- What counts for an option is the last of its values, so the same values give the same. -/
theorem value?_of_values {args again : Arguments} {name : String}
    (h : again.values name = args.values name) : again.value? name = args.value? name :=
  congrArg List.getLast? h

namespace SameOptions

variable {args again : Arguments}

/-- The same options ask for the same folder. -/
theorem chosenFolder_eq (h : SameOptions args again) :
    chosenFolder again = chosenFolder args := by
  rw [chosenFolder, value?_of_values h.folder, chosenFolder]

/-- The same options ask for the same cases. -/
theorem chosenCases_eq (h : SameOptions args again) : chosenCases again = chosenCases args := by
  rw [chosenCases, h.cases, chosenCases]

/-- The same options ask for the same ticks. -/
theorem integer?_eq (h : SameOptions args again) :
    again.integer? "ticks" = args.integer? "ticks" := by
  rw [Arguments.integer?, value?_of_values h.ticks, Arguments.integer?]

end SameOptions

/-- Which folder is asked for does not depend on the workspace. An absent value and a null in the
path are refused. -/
theorem isSettled_folderOf (args : Arguments) :
    IsSettled (folderOf args) (chosenFolder args) := by
  unfold folderOf chosenFolder
  cases (args.value? "out-dir").getD (some "golden") with
  | none => exact .inr ⟨_, fun _ => rfl⟩
  | some text =>
    by_cases hnull : (PathName.ofText text).hasNull = true
    · refine .inr ⟨.failure (.file ⟨.nullCharacter, text⟩), fun w => ?_⟩
      show (if (PathName.ofText text).hasNull then _ else _ : Session Location).run w = _
      rw [if_pos hnull]
      rfl
    · refine .inl fun w => ?_
      show (if (PathName.ofText text).hasNull then _ else _ : Session Location).run w = _
      rw [if_neg hnull]
      rfl

/-- Which cases are asked for does not depend on the workspace. An absent name is refused. -/
theorem isSettled_selectCases (args : Arguments) :
    IsSettled (selectCases (args.values "only")) (chosenCases args) := by
  -- By induction on what is given: all are names, or the first that is absent stops the tool.
  have names : ∀ only : List Given,
      IsSettled (only.mapM (present .names)) (only.filterMap id) := by
    intro only
    induction only with
    | nil => exact .inl fun _ => rfl
    | cons given only ih =>
      rw [List.mapM_cons]
      cases given with
      | none => exact .inr ⟨_, fun _ => rfl⟩
      | some name =>
        rcases ih with ih | ⟨stop, ih⟩
        · refine .inl fun w => ?_
          show ((only.mapM (present .names)) >>= _).run w = _
          rw [run_bind_of_ok (ih w)]
          rfl
        · refine .inr ⟨stop, fun w => ?_⟩
          show ((only.mapM (present .names)) >>= _).run w = _
          rw [run_bind_of_error (ih w)]
  rcases names (args.values "only") with h | ⟨stop, h⟩
  · exact .inl fun w => run_bind_of_ok (h w) _
  · exact .inr ⟨stop, fun w => run_bind_of_error (h w) _⟩

/-- Only cases of the tool can be asked for. -/
theorem chosenCases_subset (args : Arguments) : ∀ c ∈ chosenCases args, c ∈ allCases := by
  intro c hc
  unfold chosenCases at hc
  dsimp only at hc
  split at hc
  · exact hc
  · exact (List.mem_filter.mp hc).1

/-- No two of the cases that are asked for have the same name, so their folders are different. -/
theorem nodup_names_chosenCases (args : Arguments) :
    ((chosenCases args).map Case.name).Nodup := by
  have all : (allCases.map Case.name).Nodup := by decide
  unfold chosenCases
  dsimp only
  split
  · exact all
  · exact all.sublist (List.filter_sublist.map _)

/-- The request that the options make, for cases in the project at `root`. -/
def requestOf (root : String) (args : Arguments) : Request where
  root
  folder := chosenFolder args
  ticks := args.integer? "ticks"
  withListing := args.has "check-listing"
  failFast := args.has "fail-fast"

/-- The tool, once its options are known to be good. It verifies or generates, and shows a last
line if all is well. -/
theorem golden_run {words : List String} {args : Arguments}
    (hwords : goldenInterface.parse words = .ok args)
    (hfolder : ∀ w, (folderOf args).run w = .ok (chosenFolder args) w)
    (hcases : ∀ w, (selectCases (args.values "only")).run w = .ok (chosenCases args) w)
    (w : Workspace) :
    (golden root words).run w =
      (if args.has "verify" then do
        if ← verifyAll (requestOf root args) true (chosenCases args) then
          printOut "[verify] all tests OK\n"
        else throw (.exit 1)
      else generateAll (requestOf root args) (chosenCases args) : Session Unit).run w := by
  rw [golden, run_bind_of_ok (arguments_run hwords w), run_bind_of_ok (hfolder w)]
  dsimp only
  rw [run_bind_of_ok (hcases w)]
  rfl

/-- A run of the tool that comes to its end without `--verify` has found its folder and its cases
and has generated them. Finding them does not depend on the workspace, so a later run finds them
too. -/
theorem generateAll_of_outcome {words : List String} {args : Arguments} {tree : FileTree}
    {done : Workspace} (hwords : goldenInterface.parse words = .ok args)
    (hmode : args.has "verify" = false)
    (hdone : (golden root words).outcome tree = ⟨none, done⟩) :
    (∀ w, (folderOf args).run w = .ok (chosenFolder args) w) ∧
      (∀ w, (selectCases (args.values "only")).run w = .ok (chosenCases args) w) ∧
      (generateAll (requestOf root args) (chosenCases args)).run { tree } = .ok () done := by
  rw [outcome_eq_none_iff] at hdone
  have split := hdone
  rw [golden, run_bind_of_ok (arguments_run hwords _)] at split
  obtain ⟨_, _, hfolder, split⟩ := run_bind_eq_ok split
  dsimp only at split
  obtain ⟨_, _, hcases, -⟩ := run_bind_eq_ok split
  have hfolder := (isSettled_folderOf args).run_of_ok hfolder
  have hcases := (isSettled_selectCases args).run_of_ok hcases
  rw [golden_run hwords hfolder hcases, hmode, if_neg Bool.false_ne_true] at hdone
  exact ⟨hfolder, hcases, hdone⟩

/-- **The tool stays inside.** If its folder is inside the working folder, a run that generates
leaves every file outside as it was. -/
theorem get?_of_generated {words : List String} {args : Arguments} {tree : FileTree}
    {done : Workspace} (hwords : goldenInterface.parse words = .ok args)
    (hmode : args.has "verify" = false) (hdone : (golden root words).outcome tree = ⟨none, done⟩)
    (inside : (chosenFolder args).isInside = true) {other : Location}
    (outside : other.isInside = false) : done.tree.files.get? other = tree.files.get? other := by
  obtain ⟨-, -, generated⟩ := generateAll_of_outcome hwords hmode hdone
  exact get?_of_generateAll (r := requestOf root args) (w := { tree }) (proper_target _) inside
    (fun c hc => wellPlaced_of_mem_allCases (chosenCases_subset args c hc)) generated outside

/-- The words for the flags of the tool, spelled in full. -/
def flagWords : List String :=
  ["--verify", "--check-listing", "--fail-fast"]

/-- The flag of a word: its name follows two dashes, and it has no other spelling. -/
def flagSpec (text : String) : OptionSpec :=
  ⟨String.ofList (text.toList.drop 2), [text], .flag⟩

/-- These words are flags of the tool. They are looked up one by one. -/
theorem isFlag_of_mem_flagWords {text : String} (h : text ∈ flagWords) :
    goldenInterface.IsFlag text (flagSpec text) := by
  simp only [flagWords, List.mem_cons, List.not_mem_nil, or_false] at h
  rcases h with rfl | rfl | rfl
  · exact Interface.isFlag_of_find? (by decide) (by decide) (by decide) rfl
  · exact Interface.isFlag_of_find? (by decide) (by decide) (by decide) rfl
  · exact Interface.isFlag_of_find? (by decide) (by decide) (by decide) rfl

/-- A line with flags behind it asks for the same folder, cases and ticks. The names of flags are
others than those of these options. -/
theorem sameOptions_withFlags (args : Arguments) {flags : List String} (h : flags ⊆ flagWords) :
    SameOptions args (args.withFlags (flags.map flagSpec)) := by
  have others : ∀ name, (∀ text ∈ flagWords, (flagSpec text).name ≠ name) →
      (args.withFlags (flags.map flagSpec)).values name = args.values name := by
    intro name hname
    refine args.values_withFlags fun spec hspec => ?_
    obtain ⟨text, htext, rfl⟩ := List.mem_map.mp hspec
    exact hname text (h htext)
  exact ⟨others _ (by decide), others _ (by decide), others _ (by decide)⟩

/-! ### Generating and then verifying -/

/-- What a successful verification leaves: the tree as it was, a line for each case and one for
all of them, and on the second channel what the compilations have to say. -/
def verified (args : Arguments) (done : Workspace) : Workspace where
  tree := done.tree
  stdout := String.join ((chosenCases args).map verifyLine) ++ "[verify] all tests OK\n"
  stderr := done.stderr

/-- A second line with the same options verifies what the first has generated. It may be any line
that is accepted, not only the first with flags behind it. -/
theorem outcome_again {words again : List String} {args args' : Arguments} {tree : FileTree}
    {done : Workspace} (hwords : goldenInterface.parse words = .ok args)
    (hmode : args.has "verify" = false) (hdone : (golden root words).outcome tree = ⟨none, done⟩)
    (habsent : ∀ c ∈ chosenCases args, c.schedule = none →
      tree.isPresent (chosenFolder args ++ [c.name, "schedule.txt"]) = false)
    (hagain : goldenInterface.parse again = .ok args') (same : SameOptions args args')
    (hverify : args'.has "verify" = true) :
    (golden root again).outcome done.tree = ⟨none, verified args done⟩ := by
  obtain ⟨hfolder, hcases, hdone⟩ := generateAll_of_outcome hwords hmode hdone
  rw [outcome_eq_none_iff]
  have proper : Proper (chosenFolder args) := proper_target _
  have placed : ∀ c ∈ chosenCases args, c.WellPlaced :=
    fun c hc => wellPlaced_of_mem_allCases (chosenCases_subset args c hc)
  have absent : ∀ c ∈ chosenCases args, c.schedule = none →
      tree.isPresent (chosenFolder args ++ [c.name] ++ ["schedule.txt"]) = false := by
    intro c hc hnone
    rw [List.append_assoc]
    exact habsent c hc hnone
  -- The first run generates, so all cases are stored.
  obtain ⟨⟨notes, stored, stderr⟩, -⟩ :=
    allStored_of_generateAll (r := requestOf root args) (w := { tree }) proper placed
      (nodup_names_chosenCases args) absent hdone
  -- The second run finds the same folder, the same cases and the same ticks.
  have hfolder' : ∀ w, (folderOf args').run w = .ok (chosenFolder args') w := by
    rw [same.chosenFolder_eq, folderOf, value?_of_values same.folder]
    exact hfolder
  have hcases' : ∀ w, (selectCases (args'.values "only")).run w = .ok (chosenCases args') w := by
    rw [same.chosenCases_eq, same.cases]
    exact hcases
  have storedAgain : AllStored root (chosenFolder args') (args'.integer? "ticks") done.tree
      (chosenCases args) notes := by
    rw [same.chosenFolder_eq, same.integer?_eq]
    exact stored
  have verifies := verifyAll_run (r := requestOf root args') (w := { tree := done.tree })
    (proper_target _) placed storedAgain
  rw [golden_run hagain hfolder' hcases', hverify, if_pos rfl, same.chosenCases_eq,
    run_bind_of_ok verifies, verified, stderr]
  show EStateM.Result.ok () _ = _
  simp

/-- **Generating and then verifying succeeds.** Let the tool come to its end without `--verify`,
on a tree in which no case without a schedule has one in its folder. Then the tool comes to its
end with `--verify` as well, and says that all is well:

- on every line that asks for the same folder, cases and ticks;
- on the line itself with `--verify` behind it, and any of the other flags.

Nothing is written, and the notices are those of the first run. -/
theorem outcome_verify_of_generated {words : List String} {args : Arguments} {tree : FileTree}
    {done : Workspace} (hwords : goldenInterface.parse words = .ok args)
    (hmode : args.has "verify" = false) (hdone : (golden root words).outcome tree = ⟨none, done⟩)
    (habsent : ∀ c ∈ chosenCases args, c.schedule = none →
      tree.isPresent (chosenFolder args ++ [c.name, "schedule.txt"]) = false) :
    (∀ again args', goldenInterface.parse again = .ok args' → SameOptions args args' →
        args'.has "verify" = true →
        (golden root again).outcome done.tree = ⟨none, verified args done⟩) ∧
      ∀ flags ⊆ ["--check-listing", "--fail-fast"],
        (golden root (words ++ "--verify" :: flags)).outcome done.tree =
          ⟨none, verified args done⟩ := by
  constructor
  · intro again args' hagain same hverify
    exact outcome_again hwords hmode hdone habsent hagain same hverify
  · intro flags hflags
    have known : "--verify" :: flags ⊆ flagWords :=
      List.cons_subset.mpr ⟨by decide, fun text htext => List.mem_cons_of_mem _ (hflags htext)⟩
    have hagain := Interface.parse_append_flags rfl hwords fun flag hflag =>
      isFlag_of_mem_flagWords (known hflag)
    have hverify : flagSpec "--verify" ∈ ("--verify" :: flags).map flagSpec := List.mem_cons_self
    exact outcome_again hwords hmode hdone habsent hagain (sameOptions_withFlags args known)
      (args.has_withFlags hverify)

/-- Two cases, one of them with a schedule whose newlines are not kept by the copy. They are
generated in a folder of another name and verified with the listing. -/
theorem outcome_verify_of_alarm :
    let words := ["--out-dir=kept", "--only", "sensor_alarm", "--only", "sum_loop", "--ticks=20"]
    let tree : FileTree :=
      { files :=
          ⟨[(["examples", "sensor_alarm.mls"],
              "level = tank1 . water;\r\nprint(level, out1);".toUTF8),
            (["examples", "sensor_alarm.input"], "0 tank1 water 5\r\n".toUTF8),
            (["examples", "sum_loop.mls"], "print(\"sum\", out2);".toUTF8)]⟩ }
    tree.isPresent ["kept", "sum_loop", "schedule.txt"] = false ∧
    ∃ done, (golden "/project" words).outcome tree = ⟨none, done⟩ ∧
      (golden "/project" (words ++ ["--verify", "--check-listing"])).outcome done.tree =
        ⟨none,
          { tree := done.tree
            stdout := "[verify] sum_loop\n[verify] sensor_alarm\n[verify] all tests OK\n"
            stderr := done.stderr }⟩ := by
  intro words tree
  have parsed : goldenInterface.parse words =
      .ok
        ⟨[], [("out-dir", some "kept"), ("only", some "sensor_alarm"), ("only", some "sum_loop"),
          ("ticks", some "20")]⟩ :=
    eq_ok_of_toOption (by decide +kernel)
  have ends : ((golden "/project" words).outcome tree).stop.isNone = true := by decide +kernel
  have absent : tree.isPresent ["kept", "sum_loop", "schedule.txt"] = false := by decide +kernel
  cases hdone : (golden "/project" words).outcome tree with
  | mk stop done =>
    rw [hdone] at ends
    cases stop with
    | some stop => cases ends
    | none =>
      have again := (outcome_verify_of_generated parsed (by decide) hdone (by decide +kernel)).2
        ["--check-listing"] (by decide)
      have lines :
          String.join
            ((chosenCases ⟨[], [("out-dir", some "kept"), ("only", some "sensor_alarm"),
              ("only", some "sum_loop"), ("ticks", some "20")]⟩).map verifyLine) ++
              "[verify] all tests OK\n" =
          "[verify] sum_loop\n[verify] sensor_alarm\n[verify] all tests OK\n" := by
        decide +kernel
      rw [verified, lines] at again
      exact ⟨absent, done, rfl, again⟩

end Tool.Golden

end Tickscript
