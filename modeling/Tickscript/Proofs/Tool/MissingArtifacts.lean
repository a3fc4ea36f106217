import Mathlib
import Tickscript.Proofs.ProgramText.Length
import Tickscript.Proofs.Tool.Verification

/-!
# `Tickscript.Proofs.Tool.MissingArtifacts`: verifying a case that is not complete

Some of the artifacts of a case may have gone since it was generated. Verification takes a text
that is missing for an empty one, and a schedule that is missing for one without events.
`verifyCase_of_thinned` says what this comes to.

With the program in place everything depends on one run, that of the stored program with the
events that are found. Generation has made this run if the schedule is in place too, so it
succeeds, and then so does verification. Without the schedule it is another run, and it may fail:
`verifyCase_fails_without_schedule` is a program that computes a number too large to be written,
but only as long as no sensor has been heard of.
-/

set_option autoImplicit false

namespace Tickscript.Tool.Golden

open Tickscript.Session Location FileTree

variable {root : String} {base : Location} {c : Case} {ticks : Int} {done t : FileTree}

/-- There is no file of this name in the folder of a case. The answer is that of the tree, and
there is one: looking for the file does not fail. -/
def Lacks (root : String) (base : Location) (t : FileTree) (file : String) : Prop :=
  t.holds (Location.named root (base ++ [file])) = .ok false

/-- The answers of a tree can be compared. -/
instance (root : String) (base : Location) (t : FileTree) (file : String) :
    Decidable (Lacks root base t file) :=
  inferInstanceAs (Decidable (_ = _))

/-- A tree `t` in which artifacts may be missing that are in `done`:

- `source`: the source of the case is the same;
- `artifact`: a program, listing or text of outputs that is there is the one that was generated;
- `schedule`: a schedule that is there is one that was generated. -/
structure Thinned (root : String) (base : Location) (c : Case) (done t : FileTree) : Prop where
  source : t.read (c.source.named root) = done.read (c.source.named root)
  artifact : ∀ file ∈ ["program.mlog", "program.lst", "out.txt"], ¬Lacks root base t file →
    t.read (Location.named root (base ++ [file])) =
      done.read (Location.named root (base ++ [file]))
  schedule : ¬Lacks root base t "schedule.txt" → c.schedule ≠ none ∧
    t.read (Location.named root (base ++ ["schedule.txt"])) =
      done.read (Location.named root (base ++ ["schedule.txt"]))

/-- What is left of the artifacts of a case: those that are not missing, and an empty text or no
events for the others. -/
def Artifacts.findings (a : Artifacts) (root : String) (base : Location) (t : FileTree) :
    Findings where
  program := if Lacks root base t "program.mlog" then "" else a.compiled.program
  listing := if Lacks root base t "program.lst" then "" else a.compiled.listing
  outputs := if Lacks root base t "out.txt" then "" else a.outputs.format
  events := if Lacks root base t "schedule.txt" then [] else a.events

/-- Verification finds what is left. A text that is there is the one that was generated, so it has
no carriage returns. -/
theorem Thinned.findings_in (h : Thinned root base c done t) {a : Artifacts}
    (made : a.Made root base c ticks done) : (a.findings root base t).In root base t := by
  obtain ⟨program, listing⟩ :=
    noReturn_of_compiledOf (noReturn_of_textAt made.source) made.compiled
  -- The three texts are looked for in the same way.
  have expects : ∀ {file text : String}, file ∈ ["program.mlog", "program.lst", "out.txt"] →
      NoReturn text → done.read (Location.named root (base ++ [file])) = .ok text.toUTF8 →
      Expects root base t file (if Lacks root base t file then "" else text) := by
    intro file text hfile clean hread
    split
    · rename_i lacks
      exact .absent lacks
    · rename_i present
      exact .stored ((h.artifact file hfile present).trans hread) clean
  refine ⟨expects (by simp) program made.programFile, expects (by simp) listing made.listingFile,
    expects (by simp) made.noReturn_outputs made.outputsFile, ?_⟩
  unfold Artifacts.findings
  dsimp only
  split
  · rename_i lacks
    exact .absent lacks
  · rename_i present
    -- A schedule that is there is the copy, so the case has one.
    obtain ⟨scheduled, same⟩ := h.schedule present
    have copied := made.copied
    cases hschedule : c.schedule with
    | none => exact absurd hschedule scheduled
    | some location =>
      rw [hschedule] at copied
      cases copied with
      | copy held =>
        obtain ⟨text, read, parsed⟩ := held
        exact .stored ⟨text, same.trans read, parsed⟩

/-! ### What is shown of a missing text -/

/-- What is shown of a text if its file is missing: it differs from the empty text in all its
lines. -/
def absenceText (root : String) (base : Location) (t : FileTree)
    (name file actual : String) : String :=
  if Lacks root base t file then
    String.join ((differenceLines name file "" actual).map (· ++ "\n")) else ""

/-- Nothing else is shown of a text, because it agrees with its file if there is one. An empty
text would agree with a missing file, too. -/
theorem mismatchText_of_lacks (t : FileTree) (name file : String) {actual : String}
    (filled : actual ≠ "") :
    mismatchText name file (if Lacks root base t file then "" else actual) actual =
      absenceText root base t name file actual := by
  unfold absenceText
  split
  · exact if_neg filled
  · exact if_pos rfl

/-- The texts of a compiled program are not empty, because there is at least the instruction that
ends it. -/
theorem filled_of_compiledOf {source : String} {compiled : Compiled}
    (h : compiledOf source = .ok compiled) : compiled.program ≠ "" ∧ compiled.listing ≠ "" := by
  obtain ⟨code, hcode, h⟩ := bind_eq_ok h
  obtain ⟨program, hprogram, h⟩ := bind_eq_ok h
  obtain ⟨listing, hlisting, h⟩ := bind_eq_ok h
  cases h
  have some := code_ne_nil (mapError_eq_ok.mp hcode)
  exact ⟨encode_ne_empty (mapError_eq_ok.mp hprogram) some,
    listing_ne_empty (mapError_eq_ok.mp hlisting) some⟩

/-- What is shown of the texts is that they are missing. -/
theorem shownTexts_findings {a : Artifacts} (h : compiledOf a.source = .ok a.compiled)
    (t : FileTree) (name : String) (withListing : Bool) :
    shownTexts name (a.findings root base t) a.compiled withListing =
      absenceText root base t name "program.mlog" a.compiled.program ++
        if withListing then absenceText root base t name "program.lst" a.compiled.listing
        else "" := by
  obtain ⟨program, listing⟩ := filled_of_compiledOf h
  rw [shownTexts, Artifacts.findings, mismatchText_of_lacks t name "program.mlog" program,
    mismatchText_of_lacks t name "program.lst" listing]

/-- With the program in place, the texts are as expected unless the listing is compared and
missing. A missing listing counts as empty, and the one that was compiled is not. -/
theorem sameTexts_findings {a : Artifacts} (h : compiledOf a.source = .ok a.compiled)
    (present : ¬Lacks root base t "program.mlog") (withListing : Bool) :
    sameTexts (a.findings root base t) a.compiled withListing =
      decide (withListing = true → ¬Lacks root base t "program.lst") := by
  have filled := (filled_of_compiledOf h).2
  have program : (a.findings root base t).program = a.compiled.program := if_neg present
  rw [sameTexts, program, decide_eq_true rfl, Bool.true_and]
  cases withListing with
  | false => simp
  | true =>
    by_cases lacks : Lacks root base t "program.lst"
    · have listing : (a.findings root base t).listing = "" := if_pos lacks
      simp [listing, filled, lacks]
    · have listing : (a.findings root base t).listing = a.compiled.listing := if_neg lacks
      simp [listing, lacks]

/-! ### Running what is left -/

/-- A program that was run once with success can only fail in the machine. That it can be read
does not depend on the events. -/
theorem machine_of_outputsOf {program : String} {events other : List SensorEvent}
    {outputs : Outputs} (h : outputsOf program events ticks = .ok outputs) {problem : Failure}
    (failed : outputsOf program other ticks = .error problem) :
    ∃ fault, problem = .machine fault := by
  unfold outputsOf at h failed
  cases hcode : decode program with
  | error fault =>
    rw [hcode] at h
    cases h
  | ok code =>
    rw [hcode] at failed
    dsimp only at failed
    unfold ending at failed
    split at failed
    · cases failed
    · rename_i fault _
      cases failed
      exact ⟨fault, rfl⟩

/-- What is left of a case fails only without its schedule, and only in the machine. -/
theorem Artifacts.Made.unscheduled_of_error {a : Artifacts} (made : a.Made root base c ticks done)
    {problem : Failure}
    (failed : outputsOf a.compiled.program (a.findings root base t).events ticks =
      .error problem) :
    Lacks root base t "schedule.txt" ∧ a.events ≠ [] ∧ ∃ fault, problem = .machine fault := by
  -- Generation has made this run with all the events, so some of them are missing.
  have missing : (a.findings root base t).events ≠ a.events := by
    intro same
    rw [same, made.outputs] at failed
    cases failed
  have unscheduled : Lacks root base t "schedule.txt" := by
    by_contra present
    exact missing (if_neg present)
  refine ⟨unscheduled, ?_, machine_of_outputsOf made.outputs failed⟩
  intro none
  exact missing ((if_pos unscheduled).trans none.symm)

/-- Where nothing is, nothing is read. What the fault says is left open. -/
theorem exists_fault_of_lacks {file : String} (h : Lacks root base t file) :
    ∃ fault, t.read (Location.named root (base ++ [file])) = .error fault := by
  cases hread : t.read (Location.named root (base ++ [file])) with
  | error fault => exact ⟨fault, rfl⟩
  | ok bytes =>
    rw [Lacks, holds_of_read hread] at h
    cases h

/-- The workspace in which a session has ended, well or not. What a tool has shown is to be seen
there in both cases. -/
def finalWorkspace {α : Type} : EStateM.Result Stop Workspace α → Workspace
  | .ok _ w => w
  | .error _ w => w

/-- Without a program the outputs cannot be compared, and nothing more is shown. Reading the
program is what fails. -/
theorem finalWorkspace_compareOutputs {w : Workspace} {events : List SensorEvent}
    (found : FindsEvents root base w.tree events) (lacks : Lacks root base w.tree "program.mlog")
    (same : Bool) : finalWorkspace ((compareOutputs root base c ticks same).run w) = w := by
  obtain ⟨fault, hfault⟩ := exists_fault_of_lacks lacks
  have text : (readText (Location.named root (base ++ ["program.mlog"]))).run w =
      .error (.failure (.file fault)) w := by
    rw [readText_run_eq, textAt, hfault]
    rfl
  -- The tool stops at the first of the steps that would follow.
  have machine := run_bind_of_error text fun text => do
    let code ← orFail .decode (decode text)
    return Machine.start code events
  have outputs : (outputsAt root (base ++ ["program.mlog"]) events ticks).run w =
      .error (.failure (.file fault)) w :=
    run_bind_of_error (run_bind_of_error machine _) _
  rw [compareOutputs, run_bind_of_ok (storedEvents_run found), run_bind_of_error outputs]
  rfl

section Thinned

variable {a : Artifacts} (thinned : Thinned root base c done t)
variable (made : a.Made root base c ticks done)
variable (withListing : Bool) (stdout stderr : String)

include thinned made

/-- The source of the case is what it was when the artifacts were made. -/
theorem Thinned.source_text : textAt t (c.source.named root) = .ok a.source := by
  rw [textAt, thinned.source]
  exact made.source

/-- Without the program, verification shows what is missing and then stops. It does not come to a
verdict. -/
theorem Thinned.final_of_lacks (lacks : Lacks root base t "program.mlog") :
    finalWorkspace
      ((verifyCase root base c ticks withListing).run { tree := t, stdout, stderr }) =
      { tree := t
        stdout := stdout ++ shownTexts c.name (a.findings root base t) a.compiled withListing
        stderr := stderr ++ noticesText a.source false } := by
  have found := thinned.findings_in made
  have texts := verifyCase_run_texts (w := { tree := t, stdout, stderr })
    (thinned.source_text made) made.compiled found ticks withListing
  rw [texts]
  exact finalWorkspace_compareOutputs found.events lacks _

/-- With the program, verification runs it with the events that are left. The verdict depends on
the listing and on the outputs, as the program is the one that was generated. -/
theorem Thinned.run_of_program (present : ¬Lacks root base t "program.mlog") :
    let shown := stdout ++ shownTexts c.name (a.findings root base t) a.compiled withListing
    (verifyCase root base c ticks withListing).run { tree := t, stdout, stderr } =
      match outputsOf a.compiled.program (a.findings root base t).events ticks with
      | .ok fresh =>
        .ok (decide ((withListing = true → ¬Lacks root base t "program.lst") ∧
            fresh.format = (a.findings root base t).outputs))
          { tree := t
            stdout :=
              shown ++ mismatchText c.name "out.txt" (a.findings root base t).outputs fresh.format
            stderr := stderr ++ noticesText a.source false }
      | .error problem =>
        .error (.failure problem)
          { tree := t, stdout := shown, stderr := stderr ++ noticesText a.source false } := by
  intro shown
  have program : (a.findings root base t).program = a.compiled.program := if_neg present
  have hprogram : t.read (Location.named root (base ++ ["program.mlog"])) =
      .ok (a.findings root base t).program.toUTF8 := by
    rw [program]
    exact (thinned.artifact _ (by simp) present).trans made.programFile
  have ran := verifyCase_run_eq (w := { tree := t, stdout, stderr })
    (thinned.source_text made) made.compiled (thinned.findings_in made) hprogram ticks withListing
  dsimp only at ran
  rw [program, sameTexts_findings made.compiled present] at ran
  rw [ran]
  cases outputsOf a.compiled.program (a.findings root base t).events ticks with
  | error problem => rfl
  | ok fresh => simp only [Bool.decide_and, shown]

end Thinned

/-- **Verification of a case that is not complete.** Let a case have been generated, and let `t`
be a tree in which some of its artifacts are missing. There are the artifacts `a` that were
generated, and:

- However verification ends, it has shown first of all that the program is missing, if it is, and
  then that the listing is missing, if it is and the listing is compared.
- With the program in place it is run, with the events that were stored, or with none if the
  schedule is missing. If that run succeeds, verification ends with a verdict. It then has shown
  of the outputs how they differ from their file, which counts as empty if it is missing.
- If that run fails, verification ends with the fault of the machine. This is possible only if the
  schedule is missing and there were events in it. -/
theorem verifyCase_of_thinned {w done : Workspace} (hbase : Proper base) (placed : c.WellPlaced)
    (generated : (generateCase root base c ticks).run w = .ok () done)
    (thinned : Thinned root base c done.tree t) :
    ∃ a : Artifacts, a.Made root base c ticks done.tree ∧
      ∀ (withListing : Bool) (stdout stderr : String),
        let verified :=
          (verifyCase root base c ticks withListing).run { tree := t, stdout, stderr }
        let texts := absenceText root base t c.name "program.mlog" a.compiled.program ++
          if withListing then absenceText root base t c.name "program.lst" a.compiled.listing
          else ""
        let events := if Lacks root base t "schedule.txt" then [] else a.events
        let expected := if Lacks root base t "out.txt" then "" else a.outputs.format
        (∃ rest, (finalWorkspace verified).stdout = stdout ++ texts ++ rest) ∧
        (¬Lacks root base t "program.mlog" → ∀ fresh,
          outputsOf a.compiled.program events ticks = .ok fresh →
          verified = .ok (decide
            ((withListing = true → ¬Lacks root base t "program.lst") ∧ fresh.format = expected))
            { tree := t
              stdout := stdout ++ texts ++ mismatchText c.name "out.txt" expected fresh.format
              stderr := stderr ++ noticesText a.source false }) ∧
        (¬Lacks root base t "program.mlog" → ∀ problem,
          outputsOf a.compiled.program events ticks = .error problem →
          Lacks root base t "schedule.txt" ∧ a.events ≠ [] ∧ ∃ fault, problem = .machine fault ∧
            verified = .error (.failure (.machine fault))
              { tree := t, stdout := stdout ++ texts,
                stderr := stderr ++ noticesText a.source false }) := by
  obtain ⟨a, made, -, -⟩ := made_of_generateCase hbase placed.source placed.schedule generated
  refine ⟨a, made, ?_⟩
  intro withListing stdout stderr verified texts events expected
  have hshown : shownTexts c.name (a.findings root base t) a.compiled withListing = texts :=
    shownTexts_findings made.compiled t c.name withListing
  -- Without the program the two other parts say nothing.
  by_cases lacks : Lacks root base t "program.mlog"
  · have ended := thinned.final_of_lacks made withListing stdout stderr lacks
    rw [hshown] at ended
    refine ⟨⟨"", ?_⟩, absurd lacks, absurd lacks⟩
    rw [ended, String.append_empty]
  · have ran := thinned.run_of_program made withListing stdout stderr lacks
    dsimp only at ran
    rw [hshown] at ran
    cases hrun : outputsOf a.compiled.program events ticks with
    | ok fresh =>
      rw [show (a.findings root base t).events = events from rfl, hrun] at ran
      refine ⟨⟨mismatchText c.name "out.txt" expected fresh.format, ?_⟩,
        fun _ other hother => ?_, nofun⟩
      · rw [show verified = _ from ran]
        rfl
      · cases hother
        exact ran
    | error problem =>
      rw [show (a.findings root base t).events = events from rfl, hrun] at ran
      obtain ⟨unscheduled, some, fault, rfl⟩ := made.unscheduled_of_error hrun
      refine ⟨⟨"", ?_⟩, nofun, fun _ other hother => ⟨unscheduled, some, ?_⟩⟩
      · rw [show verified = _ from ran, String.append_empty]
        rfl
      · cases hother
        exact ⟨fault, rfl, ran⟩

/-! ### A case that needs its schedule -/

/-- A tree is thinned from every tree in which the case is the same. So a tree that is written
down can stand for the one that generation leaves. -/
theorem Thinned.of_same_reads {other : FileTree} (h : Thinned root base c other t)
    (source : done.read (c.source.named root) = other.read (c.source.named root))
    (files : ∀ file ∈ ["program.mlog", "program.lst", "out.txt", "schedule.txt"],
      done.read (Location.named root (base ++ [file])) =
        other.read (Location.named root (base ++ [file]))) :
    Thinned root base c done t := by
  refine ⟨h.source.trans source.symm, ?_, ?_⟩
  · intro file hfile present
    have known : file ∈ ["program.mlog", "program.lst", "out.txt", "schedule.txt"] :=
      List.mem_append_left ["schedule.txt"] hfile
    exact (h.artifact file hfile present).trans (files file known).symm
  · intro present
    obtain ⟨scheduled, same⟩ := h.schedule present
    exact ⟨scheduled, same.trans (files "schedule.txt" (by simp)).symm⟩

/-- Whether a session has come to its end. The answer can be computed, other than the
workspace. -/
def succeeded {α : Type} : EStateM.Result Stop Workspace α → Bool
  | .ok .. => true
  | .error .. => false

/-- A session that has come to its end has done so in its final workspace. -/
theorem eq_ok_of_succeeded {r : EStateM.Result Stop Workspace Unit} (h : succeeded r = true) :
    r = .ok () (finalWorkspace r) := by
  cases r with
  | ok a w => rfl
  | error stop w => cases h

/-- The case of the examples that has a schedule. Its source is another one here. -/
def alarm : Case where
  name := "sensor_alarm"
  source := ["examples", "sensor_alarm.mls"]
  schedule := some ["examples", "sensor_alarm.input"]

/-- The folder of its artifacts, with the name of the case as the tool has it. -/
def alarmFolder : Location := ["golden", "sensor_alarm"]

/-- A program that computes a number of too many digits, but only as long as the sensor has no
value. -/
def alarmSource : String :=
  "x = tank . oil;\nif x < 1:\nx = 10 ^ 5000;\nendif\nprint(x, out);\n"

/-- What it compiles to. The number is computed by the fourth instruction, which is jumped over if
the sensor has a value. -/
def alarmProgram : String :=
  "sensor x tank oil\njump 3 lessThan x 1\njump 4 always\nop pow x 10 5000\nprint x\n" ++
    "printflush out\nend\n"

/-- The listing of this program. -/
def alarmListing : String :=
  "0. sensor x tank oil\n1. jump 3 lessThan x 1\n2. jump 4 always\n3. op pow x 10 5000\n" ++
    "4. print x\n5. printflush out\n6. end\n"

/-- The case with its artifacts of these names. The source and the schedule of the case are there
in any case. -/
def alarmTree (names : List String) : FileTree where
  files :=
    ⟨(alarm.source, alarmSource.toUTF8) ::
      (["examples", "sensor_alarm.input"], "0 tank oil 5\n".toUTF8) ::
      ([("program.mlog", alarmProgram), ("program.lst", alarmListing), ("out.txt", "out| 5\n"),
        ("schedule.txt", "0 tank oil 5\n")].filter (·.1 ∈ names)).map
          fun artifact => (alarmFolder ++ [artifact.1], artifact.2.toUTF8)⟩

/-- The case with all its artifacts that verification reads. They are what generation leaves. -/
def alarmWhole : FileTree := alarmTree ["program.mlog", "program.lst", "out.txt", "schedule.txt"]

/-- The case is generated, and what is read afterwards is what stands in `alarmWhole`. Generation
is run for this, in the kernel. -/
theorem reads_generated_alarm :
    let generated := (generateCase "/project" alarmFolder alarm 40).run { tree := alarmTree [] }
    let done := (finalWorkspace generated).tree
    succeeded generated = true ∧
      done.read (alarm.source.named "/project") =
        alarmWhole.read (alarm.source.named "/project") ∧
      ∀ file ∈ ["program.mlog", "program.lst", "out.txt", "schedule.txt"],
        done.read (Location.named "/project" (alarmFolder ++ [file])) =
          alarmWhole.read (Location.named "/project" (alarmFolder ++ [file])) := by
  decide +kernel

/-- Texts whose bytes are read from one file are the same. -/
theorem eq_of_read {name : PathName} {text other : String} (h : done.read name = .ok text.toUTF8)
    (hother : t.read name = .ok other.toUTF8) (same : done.read name = t.read name) :
    text = other := by
  rw [same, hother] at h
  exact (String.toByteArray_inj.mp (Except.ok.inj h)).symm

/-- The case is generated, and its artifacts are known. The two results below are about trees in
which some of them are missing. -/
theorem exists_generated_alarm :
    ∃ done : Workspace,
      (generateCase "/project" alarmFolder alarm 40).run { tree := alarmTree [] } = .ok () done ∧
      (∀ t, Thinned "/project" alarmFolder alarm alarmWhole t →
        Thinned "/project" alarmFolder alarm done.tree t) ∧
      ∀ a : Artifacts, a.Made "/project" alarmFolder alarm 40 done.tree →
        a.source = alarmSource ∧ a.compiled.program = alarmProgram ∧
          a.compiled.listing = alarmListing ∧ a.outputs.format = "out| 5\n" := by
  obtain ⟨success, source, files⟩ := reads_generated_alarm
  refine ⟨_, eq_ok_of_succeeded success, fun t h => h.of_same_reads source files,
    fun a made => ⟨?_, ?_, ?_, ?_⟩⟩
  · have text := made.source
    rw [textAt, source] at text
    have known : textAt alarmWhole (alarm.source.named "/project") = .ok alarmSource :=
      eq_ok_of_toOption (by decide +kernel)
    exact (Except.ok.inj (known.symm.trans text)).symm
  · exact eq_of_read made.programFile rfl (files _ (by simp))
  · exact eq_of_read made.listingFile rfl (files _ (by simp))
  · exact eq_of_read made.outputsFile rfl (files _ (by simp))

/-- The folder of the case can be written as a path. -/
theorem proper_alarmFolder : Proper alarmFolder :=
  proper_target "golden/sensor_alarm"

/-- The case is one of those that the tool knows. -/
theorem wellPlaced_alarm : alarm.WellPlaced :=
  wellPlaced_of_mem_allCases (by decide)

/-- What is shown if the outputs are missing: all of them are added. -/
def alarmMismatch : String :=
  "[mismatch][sensor_alarm] out.txt differs\n--- golden/out.txt\n+++ fresh/out.txt\n" ++
    "@@ -0,0 +1 @@\n+out| 5\n"

/-- What is shown if the listing and the outputs are missing. -/
def alarmDifferences : String :=
  String.join ((differenceLines "sensor_alarm" "program.lst" "" alarmListing).map (· ++ "\n")) ++
    alarmMismatch

/-- The outputs of this case are one line, so the mismatch can be evaluated in full. -/
theorem mismatchText_alarm : mismatchText alarm.name "out.txt" "" "out| 5\n" = alarmMismatch := by
  set_option maxRecDepth 2000 in cbv

/-- The listing and the outputs are missing. Both are shown, and the verdict is that the case
differs. -/
theorem verifyCase_of_alarm_without_listing :
    let t := alarmTree ["program.mlog", "schedule.txt"]
    ∃ done : Workspace,
      (generateCase "/project" alarmFolder alarm 40).run { tree := alarmTree [] } = .ok () done ∧
      Thinned "/project" alarmFolder alarm done.tree t ∧
      Lacks "/project" alarmFolder t "program.lst" ∧ Lacks "/project" alarmFolder t "out.txt" ∧
      (verifyCase "/project" alarmFolder alarm 40 true).run { tree := t } =
        .ok false { tree := t, stdout := alarmDifferences } := by
  intro t
  obtain ⟨done, generated, thins, texts⟩ := exists_generated_alarm
  have program : ¬Lacks "/project" alarmFolder t "program.mlog" := by decide +kernel
  have listing : Lacks "/project" alarmFolder t "program.lst" := by decide +kernel
  have outputs : Lacks "/project" alarmFolder t "out.txt" := by decide +kernel
  have schedule : ¬Lacks "/project" alarmFolder t "schedule.txt" := by decide +kernel
  have artifact : ∀ file ∈ ["program.mlog", "program.lst", "out.txt"],
      ¬Lacks "/project" alarmFolder t file →
      t.read (Location.named "/project" (alarmFolder ++ [file])) =
        alarmWhole.read (Location.named "/project" (alarmFolder ++ [file])) := by
    rw [List.forall_mem_cons, List.forall_mem_cons, List.forall_mem_singleton]
    exact ⟨fun _ => rfl, absurd listing, absurd outputs⟩
  have thinned := thins t ⟨rfl, artifact, fun _ => ⟨by decide, rfl⟩⟩
  refine ⟨done, generated, thinned, listing, outputs, ?_⟩
  obtain ⟨a, made, verified⟩ :=
    verifyCase_of_thinned proper_alarmFolder wellPlaced_alarm generated thinned
  obtain ⟨source, -, listingText, outputsText⟩ := texts a made
  -- The schedule is in place, so the run is the one that generation has made.
  have run : outputsOf a.compiled.program
      (if Lacks "/project" alarmFolder t "schedule.txt" then [] else a.events) 40 =
      .ok a.outputs := by
    rw [if_neg schedule]
    exact made.outputs
  have notices : noticesText alarmSource false = "" := by decide +kernel
  have verdict :
      ¬((true = true → ¬Lacks "/project" alarmFolder t "program.lst") ∧ "out| 5\n" = "") :=
    fun h => h.1 rfl listing
  rw [(verified true "" "").2.1 program a.outputs run, absenceText, if_neg program, absenceText,
    if_pos listing, if_pos outputs, listingText, outputsText, source, notices,
    decide_eq_false verdict, mismatchText_alarm]
  simp only [if_true, String.empty_append]
  rfl

/-- **Without its schedule a case may fail.** Everything but the schedule is in place. The sensor
has no value then, the test holds, and the number that is computed has too many digits to be
written. -/
theorem verifyCase_fails_without_schedule :
    let t := alarmTree ["program.mlog", "program.lst", "out.txt"]
    ∃ done : Workspace,
      (generateCase "/project" alarmFolder alarm 40).run { tree := alarmTree [] } = .ok () done ∧
      Thinned "/project" alarmFolder alarm done.tree t ∧
      (∀ file ∈ ["program.mlog", "program.lst", "out.txt"],
        ¬Lacks "/project" alarmFolder t file) ∧
      ∀ withListing same after,
        (verifyCase "/project" alarmFolder alarm 40 withListing).run { tree := t } ≠
          .ok same after := by
  intro t
  obtain ⟨done, generated, thins, texts⟩ := exists_generated_alarm
  have lacks : Lacks "/project" alarmFolder t "schedule.txt" := by decide +kernel
  have artifact : ∀ file ∈ ["program.mlog", "program.lst", "out.txt"],
      ¬Lacks "/project" alarmFolder t file →
      t.read (Location.named "/project" (alarmFolder ++ [file])) =
        alarmWhole.read (Location.named "/project" (alarmFolder ++ [file])) := by
    rw [List.forall_mem_cons, List.forall_mem_cons, List.forall_mem_singleton]
    exact ⟨fun _ => rfl, fun _ => rfl, fun _ => rfl⟩
  have thinned := thins t ⟨rfl, artifact, absurd lacks⟩
  have present : ∀ file ∈ ["program.mlog", "program.lst", "out.txt"],
      ¬Lacks "/project" alarmFolder t file := by
    decide +kernel
  refine ⟨done, generated, thinned, present, ?_⟩
  intro withListing same after hsame
  obtain ⟨a, made, -, -⟩ :=
    made_of_generateCase proper_alarmFolder wellPlaced_alarm.source
      wellPlaced_alarm.schedule generated
  have ran := thinned.run_of_program made withListing "" "" (present _ (by simp))
  have events : (a.findings "/project" alarmFolder t).events = [] := by
    rw [Artifacts.findings, if_pos lacks]
  -- Without events the stored program computes the number that cannot be written.
  have failed : (outputsOf alarmProgram [] 40).toOption = none := by decide +kernel
  dsimp only at ran
  rw [(texts a made).2.1, events] at ran
  cases hrun : outputsOf alarmProgram [] 40 with
  | ok fresh =>
    rw [hrun] at failed
    cases failed
  | error problem =>
    rw [hrun] at ran
    cases hsame.symm.trans ran

end Tickscript.Tool.Golden
