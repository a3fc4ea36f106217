import Tickscript.Proofs.Machine.PlainOutputs
import Tickscript.Proofs.ProgramText.Newlines
import Tickscript.Proofs.Tool.Compilation
import Tickscript.Proofs.Tool.FileRun
import Tickscript.Tool.Golden

/-!
# `Tickscript.Proofs.Tool.Artifacts`: the artifacts of one case

`generateCase` and `verifyCase` meet in the tree of files. `Artifacts.Made` says what the first
leaves there: the source as it was compiled, the program, the listing and the outputs that come
from it, and a copy of the schedule that the program was run with. `Artifacts.Stored` is what the
second needs to agree: there must be no other schedule.

`made_of_generateCase` takes a run of the first apart, and `verifyCase_run_eq` is the run equation
of the second, for whatever it finds (`Findings`). Between the two lie other cases, which work on
folders of their own (`Stored.grows`).

Two things could come between what was written and what is compared. A text that is read has its
newlines normalised, so what was written must not hold a carriage return; this is the subject of
the modules on newlines. And the events are read from the schedule of the case when it is
generated, but from a copy when it is verified.
-/

set_option autoImplicit false

namespace Tickscript

open Tickscript.Text

/-! ### Sessions in parts -/

namespace Session

variable {α β : Type} {w after : Workspace}

/-- A session in two parts that comes to its end has come to the end of both. A run of the tool is
taken apart with this. -/
theorem run_bind_eq_ok {first : Session α} {next : α → Session β} {b : β}
    (h : (first >>= next).run w = .ok b after) :
    ∃ a mid, first.run w = .ok a mid ∧ (next a).run mid = .ok b after := by
  cases hfirst : first.run w with
  | ok a mid =>
    rw [run_bind_of_ok hfirst] at h
    exact ⟨a, mid, rfl, h⟩
  | error stop mid =>
    rw [run_bind_of_error hfirst] at h
    cases h

/-- An answer that is a value has left the workspace as it was. -/
theorem eq_of_answered {x : Except Failure α} {a : α} (h : answered w x = .ok a after) :
    x = .ok a ∧ after = w := by
  cases x with
  | error problem => cases h
  | ok b =>
    cases h
    exact ⟨rfl, rfl⟩

/-- Two parts that leave the workspace alone answer what their answers give together. So a session
that only looks at files is a computation on the tree. -/
theorem run_bind_of_answered {first : Session α} {x : Except Failure α}
    (h : first.run w = answered w x) {next : α → Session β} {y : α → Except Failure β}
    (hnext : ∀ a, (next a).run w = answered w (y a)) :
    (first >>= next).run w = answered w (x >>= y) := by
  cases x with
  | error problem => exact run_bind_of_error h next
  | ok a => exact (run_bind_of_ok h next).trans (hnext a)

/-- A result is answered as it is, with its problem as a failure. -/
theorem orFail_run {ε : Type} (toFailure : ε → Failure) (x : Except ε α) (w : Workspace) :
    (orFail toFailure x).run w = answered w (x.mapError toFailure) := by
  cases x <;> rfl

/-- The text of a file in a tree, or why there is none. Its newlines are normalised. -/
def textAt (t : FileTree) (path : PathName) : Except Failure String := do
  let bytes ← (t.read path).mapError .file
  let text ← (Utf8.decode bytes).mapError .encoding
  return fromFile text

/-- Reading a text is looking it up in the tree. -/
theorem readText_run_eq (path : PathName) (w : Workspace) :
    (readText path).run w = answered w (textAt w.tree path) := by
  have bytes : (readBytes path).run w = answered w ((w.tree.read path).mapError .file) :=
    orFail_run .file _ w
  refine run_bind_of_answered bytes fun found => ?_
  exact run_bind_of_answered (orFail_run .encoding _ w) fun text => rfl

/-- A text that was read from a file has no carriage returns. -/
theorem noReturn_of_textAt {t : FileTree} {path : PathName} {text : String}
    (h : textAt t path = .ok text) : NoReturn text := by
  obtain ⟨bytes, -, h⟩ := bind_eq_ok h
  obtain ⟨stored, -, h⟩ := bind_eq_ok h
  cases h
  exact noReturn_fromFile stored

end Session

namespace Tool.Golden

open Tickscript.Session Location FileTree

variable {root : String} {w after : Workspace} {base : Location}

/-! ### Actions at a location -/

/-- What an action on the folder `base` has done to a workspace. The first channel does not
matter.

- `grows`: in the folder it has changed the files with the given names only;
- `stderr`: it has shown the notes on the second channel. -/
structure Leaves (base : Location) (names : List String) (notes : String)
    (w after : Workspace) : Prop where
  grows : Grows base names w.tree after.tree
  stderr : after.stderr = w.stderr ++ notes

/-- One action after another has changed the files of both and has shown the notes of both. -/
theorem Leaves.trans {names more : List String} {notes further : String} {last : Workspace}
    (first : Leaves base names notes w after) (second : Leaves base more further after last) :
    Leaves base (names ++ more) (notes ++ further) w last :=
  ⟨first.grows.trans second.grows, by rw [second.stderr, first.stderr, String.append_assoc]⟩

/-- What is in a folder is deeper than the folder. -/
theorem length_lt_concat (base : Location) (file : String) :
    base.length < (base ++ [file]).length := by
  rw [List.length_append]
  exact Nat.lt_succ_self _

/-- Files with different names are different files, if they are in one folder. -/
theorem concat_ne_of_not_mem (base : Location) {file : String} {names : List String}
    (h : file ∉ names) : ∀ name ∈ names, base ++ [file] ≠ base ++ [name] := by
  intro name hname same
  have last : file = name := List.singleton_inj.mp (List.append_inj' same rfl).2
  exact h (last ▸ hname)

/-- A file of the folder that was not written is read as before. The artifacts are written one
after the other, and this carries the first ones to the end. -/
theorem Leaves.read {names : List String} {notes : String} (h : Leaves base names notes w after)
    (hbase : Proper base) {file : String} {bytes : ByteArray} (hfile : IsName file)
    (other : file ∉ names)
    (hread : w.tree.read (Location.named root (base ++ [file])) = .ok bytes) :
    after.tree.read (Location.named root (base ++ [file])) = .ok bytes :=
  (h.grows.read hbase hfile (concat_ne_of_not_mem base other)).mpr hread

/-- Writing leaves the text in its file, and nothing is shown. -/
theorem leaves_of_writeTextAt (hbase : Proper base) {name text : String} (hname : IsName name)
    (h : (writeTextAt root (base ++ [name]) text).run w = .ok () after) :
    Leaves base [name] "" w after ∧
      after.tree.read (Location.named root (base ++ [name])) = .ok text.toUTF8 := by
  cases hwrite : w.tree.write (Location.named root (base ++ [name])) text.toUTF8 with
  | error fault =>
    rw [writeTextAt, writeText_run_of_error hwrite] at h
    cases h
  | ok tree =>
    rw [writeTextAt, writeText_run_of_ok hwrite] at h
    cases h
    refine ⟨⟨?_, String.append_empty.symm⟩, read_of_write hwrite⟩
    rw [(write_named hbase hname hwrite).2]
    exact grows_withFile base name w.tree _

/-- Making folders changes no file, and makes no folder deeper than the one that is wanted. Where
a folder around it is missing, that one is made first. -/
theorem leaves_of_makeFolders (hbase : Proper base)
    (h : (makeFolders root base).run w = .ok () after) : Leaves base [] "" w after := by
  -- One folder, with those around it in place.
  have single : ∀ {base : Location} {w : Workspace} {tree : FileTree}, Proper base →
      w.tree.makeFolder (base.named root) = .ok tree → Leaves base [] "" w { w with tree } := by
    intro base w tree hbase hmake
    refine ⟨?_, String.append_empty.symm⟩
    rcases makeFolder_named hbase hmake with rfl | rfl
    · exact .refl _ _ _
    · refine ⟨fun _ _ => rfl, fun other deep hother => ?_⟩
      have notBase : other ≠ base := by
        rintro rfl
        exact Nat.lt_irrefl _ deep
      simpa [isFolder, notBase] using hother
  -- The induction is on the length, because a folder around this one has one name less.
  induction hlength : base.length using Nat.strong_induction_on generalizing base w after with
  | _ length ih =>
    rw [makeFolders] at h
    obtain ⟨_, _, hget, h⟩ := run_bind_eq_ok h
    cases hget
    split at h
    · rename_i tree hmake
      cases h
      exact single hbase hmake
    · rename_i fault hmake
      split at h
      · rename_i missing
        obtain ⟨_, _, houter, h⟩ := run_bind_eq_ok h
        obtain ⟨_, _, hget, h⟩ := run_bind_eq_ok h
        cases hget
        obtain ⟨tree, mid, hagain, h⟩ := run_bind_eq_ok h
        rw [orFail_run] at hagain
        obtain ⟨hagain, rfl⟩ := eq_of_answered hagain
        cases h
        -- What was done around the folder is no deeper than the folder itself.
        have shorter : base.dropLast.length < length := by
          have := List.length_pos_iff.mpr missing.2
          rw [List.length_dropLast]
          omega
        have outer := ih _ shorter hbase.dropLast houter rfl
        have around : Leaves base [] "" w mid :=
          ⟨⟨fun other _ => outer.grows.files other nofun,
            fun other deep => outer.grows.folders other (by omega)⟩, outer.stderr⟩
        exact around.trans (single hbase (mapError_eq_ok.mp hagain))
      · cases h

/-- The program text and the listing of a source text. This is the compiler in memory, with the
failures that the tool has. -/
def compiledOf (source : String) : Except Failure Compiled := do
  let code ← (compileCode .standard .standard source).result.mapError CompileFault.toFailure
  let program ← (encode code).mapError .render
  let listing ← (Tickscript.listing code).mapError .render
  return { program, listing }

/-- Run equation of `compileAt` on a source that can be read. The notices are shown even if the
source does not compile. -/
theorem compileAt_run {location : Location} {source : String}
    (h : textAt w.tree (location.named root) = .ok source) :
    (compileAt root location).run w =
      answered { w with stderr := w.stderr ++ noticesText source false } (compiledOf source) := by
  have read : (readTextAt root location).run w = .ok source w := by
    rw [readTextAt, readText_run_eq, h]
    rfl
  have shown : ∀ notices : List Notice, (showNotices false notices).run w =
      .ok () { w with stderr := w.stderr ++ String.join (notices.map (noticeLine false)) } :=
    fun _ => rfl
  rw [compileAt, run_bind_of_ok read]
  dsimp only
  rw [run_bind_of_ok (shown _)]
  -- Nothing is shown any more, and what can fail is the same on both sides.
  refine run_bind_of_answered (orFail_run CompileFault.toFailure _ _) fun code => ?_
  refine run_bind_of_answered (orFail_run .render _ _) fun program => ?_
  exact run_bind_of_answered (orFail_run .render _ _) fun listing => rfl

/-- A source that is compiled was read, and its notices are shown. Nothing else is changed by
it. -/
theorem compileAt_eq_ok {location : Location} {compiled : Compiled}
    (h : (compileAt root location).run w = .ok compiled after) :
    ∃ source, textAt w.tree (location.named root) = .ok source ∧
      compiledOf source = .ok compiled ∧
      after = { w with stderr := w.stderr ++ noticesText source false } := by
  obtain ⟨source, read, hread, -⟩ := run_bind_eq_ok h
  rw [readTextAt, readText_run_eq] at hread
  have found := (eq_of_answered hread).1
  rw [compileAt_run found] at h
  obtain ⟨hcompiled, same⟩ := eq_of_answered h
  exact ⟨source, found, hcompiled, same⟩

/-- Nothing that comes from a source that was read holds a carriage return. So both texts survive
a file. -/
theorem noReturn_of_compiledOf {source : String} {compiled : Compiled} (hsource : NoReturn source)
    (h : compiledOf source = .ok compiled) :
    NoReturn compiled.program ∧ NoReturn compiled.listing := by
  obtain ⟨code, hcode, h⟩ := bind_eq_ok h
  obtain ⟨program, hprogram, h⟩ := bind_eq_ok h
  obtain ⟨listing, hlisting, h⟩ := bind_eq_ok h
  cases h
  have clean := noReturn_of_compileCode hsource (mapError_eq_ok.mp hcode)
  exact ⟨clean.1 _ (mapError_eq_ok.mp hprogram), clean.2 _ (mapError_eq_ok.mp hlisting)⟩

/-- The events of a schedule file in a tree, or why there are none. Unlike a text, the bytes are
handed on as they are. -/
def eventsAt (t : FileTree) (path : PathName) : Except Failure (List SensorEvent) := do
  let bytes ← (t.read path).mapError .file
  (Schedule.ofBytes bytes).mapError .schedule

/-- Reading a schedule is looking it up in the tree. -/
theorem scheduleAt_run (root : String) (location : Location) (w : Workspace) :
    (scheduleAt root location).run w = answered w (eventsAt w.tree (location.named root)) := by
  have bytes : (readBytes (location.named root)).run w =
      answered w ((w.tree.read (location.named root)).mapError .file) :=
    orFail_run .file _ w
  exact run_bind_of_answered bytes fun found => orFail_run .schedule _ w

/-- A stored program is run as the program that the text stands for. The answer is what the
program gives in memory, and no trace is left. -/
theorem outputsAt_run {program : Location} {text : String}
    (h : w.tree.read (program.named root) = .ok text.toUTF8) (events : List SensorEvent)
    (ticks : Int) :
    (outputsAt root program events ticks).run w =
      answered w (outputsOf text events ticks >>= fun outputs => .ok outputs.format) := by
  have load := loadMachine_run h events
  have ran : (runFile (program.named root) events ticks .nowhere).run w =
      answered w (outputsOf text events ticks) := by
    rw [runFile, outputsOf]
    cases hcode : decode text with
    | error fault =>
      rw [hcode] at load
      rw [run_bind_of_error load]
      rfl
    | ok code =>
      rw [hcode] at load
      rw [run_bind_of_ok load]
      exact conclude_run _ _ w
  exact run_bind_of_answered ran fun outputs => rfl

/-- Outputs that were made are those of the program in memory, and making them changes nothing. -/
theorem outputsAt_eq_ok {program : Location} {text formatted : String} {events : List SensorEvent}
    {ticks : Int} (h : w.tree.read (program.named root) = .ok text.toUTF8)
    (hrun : (outputsAt root program events ticks).run w = .ok formatted after) :
    ∃ outputs, outputsOf text events ticks = .ok outputs ∧ formatted = outputs.format ∧
      after = w := by
  rw [outputsAt_run h] at hrun
  obtain ⟨hformatted, same⟩ := eq_of_answered hrun
  obtain ⟨outputs, houtputs, hformat⟩ := bind_eq_ok hformatted
  exact ⟨outputs, houtputs, (Except.ok.inj hformat).symm, same⟩

/-! ### What a case leaves -/

/-- The names of the files in the folder of a case. A case writes to no others. -/
def artifactNames : List String :=
  ["program.mls", "schedule.txt", "program.mlog", "program.lst", "out.txt", "meta.json"]

/-- A file that no case writes to, whatever its folder is: its name is not the one of an
artifact. -/
def IsOutside (location : Location) : Prop :=
  ∃ folder name, location = folder ++ [name] ∧ Proper folder ∧ IsName name ∧ name ∉ artifactNames

/-- A file of the project is read as before, whatever a case has written. Sources and schedules of
cases are such files. -/
theorem IsOutside.read {location : Location} (h : IsOutside location) {t grown : FileTree}
    {names : List String} (hnames : names ⊆ artifactNames) (growth : Grows base names t grown)
    {bytes : ByteArray} :
    grown.read (location.named root) = .ok bytes ↔ t.read (location.named root) = .ok bytes := by
  obtain ⟨folder, name, rfl, hfolder, hname, outside⟩ := h
  refine growth.read hfolder hname fun artifact hartifact same => ?_
  have last : name = artifact := List.singleton_inj.mp (List.append_inj' same rfl).2
  exact outside (last ▸ hnames hartifact)

/-- So is its text. -/
theorem IsOutside.textAt {location : Location} (h : IsOutside location) {t grown : FileTree}
    {names : List String} (hnames : names ⊆ artifactNames) (growth : Grows base names t grown)
    {text : String} (htext : textAt t (location.named root) = .ok text) :
    Session.textAt grown (location.named root) = .ok text := by
  obtain ⟨bytes, hbytes, htext⟩ := bind_eq_ok htext
  have again := (h.read hnames growth).mpr (mapError_eq_ok.mp hbytes)
  rw [Session.textAt, again]
  exact htext

/-- The folder of a case holds a schedule with these events. What counts is the text in the file,
with whatever newlines it has. -/
def HoldsSchedule (root : String) (base : Location) (t : FileTree) (events : List SensorEvent) :
    Prop :=
  ∃ text : String, t.read (Location.named root (base ++ ["schedule.txt"])) = .ok text.toUTF8 ∧
    Schedule.parse text = .ok events

/-- The events of the schedule in the folder of a case, or none if there is no schedule in the
sense of `missing`. Whether there is one can be asked of the tree (`StoredSchedule`) or of the
path to it (`FindsEvents`), and the latter may fail. -/
inductive EventsUnless (root : String) (base : Location) (t : FileTree) (missing : Prop) :
    List SensorEvent → Prop where
  | absent (h : missing) : EventsUnless root base t missing []
  | stored {events : List SensorEvent} (held : HoldsSchedule root base t events) :
      EventsUnless root base t missing events

/-- The schedule in the folder of a case: there is none, or a file with the events. This is asked
of the tree. -/
abbrev StoredSchedule (root : String) (base : Location) (t : FileTree) :
    List SensorEvent → Prop :=
  EventsUnless root base t (t.isPresent (base ++ ["schedule.txt"]) = false)

/-- The events that the stored program is run with: those of the stored schedule, or none if the
tree says that there is no such file. -/
abbrev FindsEvents (root : String) (base : Location) (t : FileTree) : List SensorEvent → Prop :=
  EventsUnless root base t (t.holds (Location.named root (base ++ ["schedule.txt"])) = .ok false)

/-- The events that a case is run with when it is generated: those of the copy of its schedule, or
none if it has no schedule. -/
inductive CopiedSchedule (root : String) (base : Location) (t : FileTree) :
    Option Location → List SensorEvent → Prop where
  | none : CopiedSchedule root base t none []
  | copy {location : Location} {events : List SensorEvent}
      (held : HoldsSchedule root base t events) :
      CopiedSchedule root base t (some location) events

/-- Unless there was a schedule that does not belong to the case, what is stored is what was
copied. -/
theorem CopiedSchedule.stored {t : FileTree} {schedule : Option Location}
    {events : List SensorEvent} (h : CopiedSchedule root base t schedule events)
    (absent : schedule = Option.none → t.isPresent (base ++ ["schedule.txt"]) = false) :
    StoredSchedule root base t events := by
  cases h with
  | none => exact .absent (absent rfl)
  | copy held => exact .stored held

/-- The values of the events that a case is run with hold no carriage return: they were read from
a schedule, line by line. -/
theorem CopiedSchedule.noReturn {t : FileTree} {schedule : Option Location}
    {events : List SensorEvent} (h : CopiedSchedule root base t schedule events) :
    ∀ e ∈ events, e.value.NoReturn := by
  cases h with
  | none => exact nofun
  | copy held =>
    obtain ⟨text, -, parsed⟩ := held
    exact noReturn_of_parse parsed

/-- Files in different folders are different files, whatever their names are. -/
theorem concat_ne_concat {other : Location} (h : other ≠ base) (file name : String) :
    base ++ [file] ≠ other ++ [name] :=
  fun same => h (List.append_inj' same rfl).1.symm

section Grows

variable {t grown : FileTree} {events : List SensorEvent} {other : Location} {names : List String}

/-- The schedule of a case stays where it is if what is written is not this file. The events are
the same because the text is. -/
theorem HoldsSchedule.grows (h : HoldsSchedule root base t events) (hbase : Proper base)
    (growth : Grows other names t grown)
    (hother : ∀ name ∈ names, base ++ ["schedule.txt"] ≠ other ++ [name]) :
    HoldsSchedule root base grown events := by
  obtain ⟨text, read, parsed⟩ := h
  exact ⟨text, (growth.read hbase (by decide) hother).mpr read, parsed⟩

/-- What is written around the file of a schedule could bring the file into being, so for a case
without a schedule the writing has to be no deeper than its folder. -/
theorem StoredSchedule.grows (h : StoredSchedule root base t events) (hbase : Proper base)
    (growth : Grows other names t grown)
    (hother : ∀ name ∈ names, base ++ ["schedule.txt"] ≠ other ++ [name])
    (hlength : other.length ≤ base.length) : StoredSchedule root base grown events := by
  cases h with
  | absent absent =>
    have deep := Nat.lt_of_le_of_lt hlength (length_lt_concat base "schedule.txt")
    exact .absent (growth.isPresent deep hother absent)
  | stored held => exact .stored (held.grows hbase growth hother)

/-- A case without a schedule of its own does not look at the file, so here the depth does not
matter. -/
theorem CopiedSchedule.grows {schedule : Option Location}
    (h : CopiedSchedule root base t schedule events) (hbase : Proper base)
    (growth : Grows other names t grown)
    (hother : ∀ name ∈ names, base ++ ["schedule.txt"] ≠ other ++ [name]) :
    CopiedSchedule root base grown schedule events := by
  cases h with
  | none => exact .none
  | copy held => exact .copy (held.grows hbase growth hother)

end Grows

/-- What a case is compiled from and run with, and what comes of it. All four can be computed
without files from the source and the events. -/
structure Artifacts where
  source : String
  compiled : Compiled
  events : List SensorEvent
  outputs : Outputs

/-- The artifacts of a case are those of its source, and they are in its folder. The first three
parts say what they are, the others where they are. -/
structure Artifacts.Made (a : Artifacts) (root : String) (base : Location) (c : Case)
    (ticks : Int) (t : FileTree) : Prop where
  source : textAt t (c.source.named root) = .ok a.source
  compiled : compiledOf a.source = .ok a.compiled
  outputs : outputsOf a.compiled.program a.events ticks = .ok a.outputs
  programFile : t.read (Location.named root (base ++ ["program.mlog"])) =
    .ok a.compiled.program.toUTF8
  listingFile : t.read (Location.named root (base ++ ["program.lst"])) =
    .ok a.compiled.listing.toUTF8
  outputsFile : t.read (Location.named root (base ++ ["out.txt"])) = .ok a.outputs.format.toUTF8
  copied : CopiedSchedule root base t c.schedule a.events

/-- The artifacts of a case are in its folder, and no schedule is there that is not its own. A
file that was left by another project would be taken for the schedule of the case. -/
structure Artifacts.Stored (a : Artifacts) (root : String) (base : Location) (c : Case)
    (ticks : Int) (t : FileTree) : Prop extends a.Made root base c ticks t where
  schedule : StoredSchedule root base t a.events

namespace Artifacts

variable {a : Artifacts} {c : Case} {ticks : Int} {t grown : FileTree}

/-- The outputs of a case hold no carriage return. They come from the program and from the events,
which have none, and from numbers. -/
theorem Made.noReturn_outputs (h : a.Made root base c ticks t) : NoReturn a.outputs.format := by
  have outputs := h.outputs
  unfold outputsOf at outputs
  split at outputs
  · cases outputs
  · rename_i code hcode
    have clean := Machine.noReturn_format_of_run hcode h.copied.noReturn ticks
    unfold ending at outputs
    split at outputs
    · rename_i m hrun
      rw [hrun] at clean
      rw [← Except.ok.inj outputs]
      exact clean
    · cases outputs

/-- A case that works on another folder leaves the artifacts as they are. The folders of cases are
all at one depth, so none of them is inside another. -/
theorem Stored.grows (h : a.Stored root base c ticks t) (hbase : Proper base)
    (hsource : IsOutside c.source) {other : Location} {names : List String}
    (hnames : names ⊆ artifactNames) (growth : Grows other names t grown) (hother : other ≠ base)
    (hlength : other.length = base.length) : a.Stored root base c ticks grown := by
  have keep : ∀ {file : String} {bytes : ByteArray}, IsName file →
      t.read (Location.named root (base ++ [file])) = .ok bytes →
      grown.read (Location.named root (base ++ [file])) = .ok bytes :=
    fun hfile => (growth.read hbase hfile fun name _ => concat_ne_concat hother _ name).mpr
  -- No file of the other folder is one of this folder.
  have copied := h.copied.grows hbase growth fun name _ => concat_ne_concat hother _ name
  have schedule := h.schedule.grows hbase growth
    (fun name _ => concat_ne_concat hother _ name) (Nat.le_of_eq hlength)
  exact ⟨⟨hsource.textAt hnames growth h.source, h.compiled, h.outputs,
    keep (by decide) h.programFile, keep (by decide) h.listingFile,
    keep (by decide) h.outputsFile, copied⟩, schedule⟩

end Artifacts

/-! ### Writing the artifacts of a case -/

/-- Copying a schedule does nothing if there is no such file, and else leaves its text. The copy
has the newlines that reading has made. -/
theorem copySchedule_eq_ok (hbase : Proper base) {schedule : Option Location}
    (h : (copySchedule root base schedule).run w = .ok () after) :
    (after = w ∧ ∀ location ∈ schedule, w.tree.holds (location.named root) = .ok false) ∨
      ∃ location text, schedule = some location ∧ textAt w.tree (location.named root) = .ok text ∧
        Leaves base ["schedule.txt"] "" w after ∧
        after.tree.read (Location.named root (base ++ ["schedule.txt"])) = .ok text.toUTF8 := by
  cases schedule with
  | none =>
    cases h
    exact .inl ⟨rfl, nofun⟩
  | some location =>
    obtain ⟨present, looked, hholds, h⟩ := run_bind_eq_ok h
    obtain ⟨hholds, same⟩ := eq_of_answered ((orFail_run .file _ _).symm.trans hholds)
    rw [same] at h
    cases present with
    | false =>
      cases h
      refine .inl ⟨rfl, fun other hother => ?_⟩
      cases hother
      exact mapError_eq_ok.mp hholds
    | true =>
      obtain ⟨text, read, hread, h⟩ := run_bind_eq_ok h
      rw [readTextAt, readText_run_eq] at hread
      obtain ⟨hread, same⟩ := eq_of_answered hread
      rw [same] at h
      exact .inr ⟨location, text, rfl, hread, leaves_of_writeTextAt hbase (by decide) h⟩

/-- In both cases no other file is touched. -/
theorem leaves_of_copySchedule (hbase : Proper base) {schedule : Option Location}
    (h : (copySchedule root base schedule).run w = .ok () after) :
    Leaves base ["schedule.txt"] "" w after := by
  rcases copySchedule_eq_ok hbase h with ⟨rfl, -⟩ | ⟨location, text, -, -, left, -⟩
  · exact ⟨.refl _ _ _, String.append_empty.symm⟩
  · exact left

/-- Reading the events of a case changes nothing. -/
theorem eq_of_caseEvents {schedule : Option Location} {events : List SensorEvent}
    (h : (caseEvents root schedule).run w = .ok events after) : after = w := by
  cases schedule with
  | none =>
    cases h
    rfl
  | some location =>
    rw [caseEvents, scheduleAt_run] at h
    exact (eq_of_answered h).2

/-- A copy of a schedule has the events of the schedule, although its newlines may be others. The
events are read later than the copy is made, but from the same bytes. -/
theorem parse_of_eventsAt {t grown : FileTree} {path : PathName} {text : String}
    {events : List SensorEvent}
    (same : ∀ bytes, grown.read path = .ok bytes → t.read path = .ok bytes)
    (htext : textAt t path = .ok text) (hevents : eventsAt grown path = .ok events) :
    Schedule.parse text = .ok events := by
  obtain ⟨bytes, hbytes, hevents⟩ := bind_eq_ok hevents
  obtain ⟨found, hfound, htext⟩ := bind_eq_ok htext
  obtain ⟨stored, hstored, htext⟩ := bind_eq_ok htext
  cases htext
  have read := same bytes (mapError_eq_ok.mp hbytes)
  rw [mapError_eq_ok.mp hfound] at read
  cases read
  have parsed := mapError_eq_ok.mp hevents
  rw [Schedule.ofBytes, mapError_eq_ok.mp hstored] at parsed
  rw [parse_fromFile]
  exact parsed

/-- The events that a case is run with are those of the schedule that was copied. What was written
in between were other artifacts. -/
theorem copiedSchedule_of_caseEvents (hbase : Proper base) {schedule : Option Location}
    {names : List String} {mid last : Workspace} {events : List SensorEvent}
    (hschedule : ∀ location ∈ schedule, IsOutside location)
    (copied : (copySchedule root base schedule).run w = .ok () mid)
    (growth : Grows base names mid.tree after.tree) (hnames : names ⊆ artifactNames)
    (notSchedule : "schedule.txt" ∉ names)
    (hevents : (caseEvents root schedule).run after = .ok events last) :
    CopiedSchedule root base after.tree schedule events := by
  rcases copySchedule_eq_ok hbase copied with ⟨rfl, hholds⟩ |
    ⟨location, text, rfl, htext, left, read⟩
  · cases schedule with
    | none =>
      cases hevents
      exact .none
    | some location =>
      -- The schedule was read later, so it was there before.
      rw [caseEvents, scheduleAt_run] at hevents
      obtain ⟨bytes, hbytes, -⟩ := bind_eq_ok (eq_of_answered hevents).1
      have there := ((hschedule location rfl).read hnames growth).mp (mapError_eq_ok.mp hbytes)
      have absent := hholds location rfl
      rw [holds_of_read there] at absent
      cases absent
  · rw [caseEvents, scheduleAt_run] at hevents
    -- The schedule of the case is no artifact, so it was not written in the meantime.
    have outside := hschedule location rfl
    have parsed := parse_of_eventsAt
      (fun bytes hbytes =>
        (outside.read (by decide) left.grows).mp ((outside.read hnames growth).mp hbytes))
      htext (eq_of_answered hevents).1
    exact (CopiedSchedule.copy ⟨text, read, parsed⟩).grows hbase growth
      (concat_ne_of_not_mem base notSchedule)

/-- **What generation leaves.** The artifacts of a case that was generated are in its folder, and
nothing but its own files was written. Without a schedule of its own no schedule was written
either. -/
theorem made_of_generateCase {c : Case} {ticks : Int} (hbase : Proper base)
    (hsource : IsOutside c.source) (hschedule : ∀ location ∈ c.schedule, IsOutside location)
    (h : (generateCase root base c ticks).run w = .ok () after) :
    ∃ a : Artifacts, a.Made root base c ticks after.tree ∧
      Leaves base artifactNames (noticesText a.source false) w after ∧
      (c.schedule = none →
        Grows base (artifactNames.erase "schedule.txt") w.tree after.tree) := by
  -- The workspaces between the steps that write are named for the last file that was written.
  obtain ⟨_, made, hmade, h⟩ := run_bind_eq_ok h
  obtain ⟨copy, _, hcopy, h⟩ := run_bind_eq_ok h
  rw [readTextAt, readText_run_eq] at hcopy
  rw [(eq_of_answered hcopy).2] at h
  obtain ⟨_, kept, hkept, h⟩ := run_bind_eq_ok h
  obtain ⟨_, copied, hcopied, h⟩ := run_bind_eq_ok h
  obtain ⟨compiled, noted, hcompiled, h⟩ := run_bind_eq_ok h
  obtain ⟨_, coded, hcoded, h⟩ := run_bind_eq_ok h
  obtain ⟨_, listed, hlisted, h⟩ := run_bind_eq_ok h
  obtain ⟨events, _, hevents, h⟩ := run_bind_eq_ok h
  obtain ⟨formatted, _, hran, h⟩ := run_bind_eq_ok h
  obtain ⟨_, printed, hprinted, hdescribed⟩ := run_bind_eq_ok h
  rw [eq_of_caseEvents hevents] at hran
  obtain ⟨source, hread, hsourceOk, rfl⟩ := compileAt_eq_ok hcompiled
  obtain ⟨codedLeaves, codeRead⟩ := leaves_of_writeTextAt hbase (by decide) hcoded
  obtain ⟨listedLeaves, listingRead⟩ := leaves_of_writeTextAt hbase (by decide) hlisted
  have programRead := listedLeaves.read hbase (by decide) (by decide) codeRead
  obtain ⟨outputs, houtputs, rfl, same⟩ := outputsAt_eq_ok programRead hran
  rw [same] at hprinted
  obtain ⟨printedLeaves, outputsRead⟩ := leaves_of_writeTextAt hbase (by decide) hprinted
  obtain ⟨describedLeaves, -⟩ := leaves_of_writeTextAt hbase (by decide) hdescribed
  -- What comes before the compilation, and what comes after it, leaves the artifacts apart.
  have before :=
    (leaves_of_makeFolders hbase hmade).trans (leaves_of_writeTextAt hbase (by decide) hkept).1
  have copiedLeaves := leaves_of_copySchedule hbase hcopied
  have toListed := codedLeaves.trans listedLeaves
  have fromListed := printedLeaves.trans describedLeaves
  have schedule := copiedSchedule_of_caseEvents hbase hschedule hcopied toListed.grows (by decide)
    (by decide) hevents
  have noted : Leaves base [] (noticesText source false) copied
      { copied with stderr := copied.stderr ++ noticesText source false } :=
    ⟨.refl _ _ _, rfl⟩
  refine ⟨⟨source, compiled, events, outputs⟩, ⟨?_, hsourceOk, houtputs, ?_, ?_, ?_, ?_⟩, ?_, ?_⟩
  · exact hsource.textAt (by decide) (toListed.trans fromListed).grows hread
  · exact fromListed.read hbase (by decide) (by decide) programRead
  · exact fromListed.read hbase (by decide) (by decide) listingRead
  · exact describedLeaves.read hbase (by decide) (by decide) outputsRead
  · exact schedule.grows hbase fromListed.grows (concat_ne_of_not_mem base (by decide))
  · simpa [artifactNames] using ((before.trans copiedLeaves).trans noted).trans
      (toListed.trans fromListed)
  · intro hnone
    have nothing : copied = kept := by
      rw [hnone] at hcopied
      cases hcopied
      rfl
    have whole := ((nothing ▸ before).trans noted).trans (toListed.trans fromListed)
    simpa [artifactNames] using whole.grows

/-- A case that was generated is stored, unless there was a schedule that does not belong to it.
Such a schedule is not removed. -/
theorem stored_of_generateCase {c : Case} {ticks : Int} (hbase : Proper base)
    (hsource : IsOutside c.source) (hschedule : ∀ location ∈ c.schedule, IsOutside location)
    (habsent : c.schedule = none → w.tree.isPresent (base ++ ["schedule.txt"]) = false)
    (h : (generateCase root base c ticks).run w = .ok () after) :
    ∃ a : Artifacts, a.Stored root base c ticks after.tree ∧
      Leaves base artifactNames (noticesText a.source false) w after := by
  obtain ⟨a, made, leaves, unscheduled⟩ := made_of_generateCase hbase hsource hschedule h
  refine ⟨a, ⟨made, made.copied.stored ?_⟩, leaves⟩
  intro hnone
  exact (unscheduled hnone).isPresent (length_lt_concat base _)
    (concat_ne_of_not_mem base (by decide)) (habsent hnone)

/-! ### Comparing a case with its artifacts -/

/-- Looking for a file gives the answer of the tree. -/
theorem holdsAt_run {location : Location} {present : Bool}
    (h : w.tree.holds (location.named root) = .ok present) :
    (holdsAt root location).run w = .ok present w := by
  show (orFail .file (w.tree.holds (location.named root))).run w = _
  rw [h]
  rfl

/-- The text that an artifact is compared with: that of its file, or an empty one if there is no
file. A text with a carriage return would not be read as it is stored, so there must be none. -/
inductive Expects (root : String) (base : Location) (t : FileTree) (file : String) :
    String → Prop where
  | absent (h : t.holds (Location.named root (base ++ [file])) = .ok false) :
      Expects root base t file ""
  | stored {text : String}
      (read : t.read (Location.named root (base ++ [file])) = .ok text.toUTF8)
      (clean : NoReturn text) : Expects root base t file text

/-- What is shown of an artifact that is compared; nothing if it is as expected. Else there are
the lines of a difference. -/
def mismatchText (name file expected actual : String) : String :=
  if actual = expected then ""
  else String.join ((differenceLines name file expected actual).map (· ++ "\n"))

/-- Of an artifact that is as expected nothing is shown. -/
@[simp] theorem mismatchText_self (name file text : String) :
    mismatchText name file text text = "" :=
  if_pos rfl

/-- Run equation of `checkArtifact`. It answers whether the artifact is as expected, shows the
difference if not, and goes on in both cases. -/
theorem checkArtifact_run {file expected : String} (h : Expects root base w.tree file expected)
    (name actual : String) :
    (checkArtifact root base name file actual).run w =
      .ok (decide (actual = expected))
        { w with stdout := w.stdout ++ mismatchText name file expected actual } := by
  have compared : (if actual = expected then return true
      else do
        showDifference name file expected actual
        return false : Session Bool).run w =
      .ok (decide (actual = expected))
        { w with stdout := w.stdout ++ mismatchText name file expected actual } := by
    by_cases same : actual = expected
    · rw [if_pos same, mismatchText, if_pos same, String.append_empty, decide_eq_true same]
      rfl
    · rw [if_neg same, mismatchText, if_neg same, decide_eq_false same]
      rfl
  rw [checkArtifact]
  dsimp only
  cases h with
  | absent h =>
    rw [run_bind_of_ok (holdsAt_run h), if_neg Bool.false_ne_true]
    exact compared
  | stored read clean =>
    have text : (readTextAt root (base ++ [file])).run w = .ok expected w := by
      rw [readTextAt, readText_run read, fromFile_of_noReturn clean]
    rw [run_bind_of_ok (holdsAt_run (holds_of_read read)), if_pos rfl, run_bind_of_ok text]
    exact compared

/-- Looking for the schedule of a stored case never fails, because the program is stored beside
it. -/
theorem StoredSchedule.findsEvents {t : FileTree} {events : List SensorEvent}
    (h : StoredSchedule root base t events) (hbase : Proper base) {program : ByteArray}
    (hprogram : t.read (Location.named root (base ++ ["program.mlog"])) = .ok program) :
    FindsEvents root base t events := by
  cases h with
  | absent absent =>
    have looked : t.holds (Location.named root (base ++ ["schedule.txt"])) = _ :=
      holds_beside hbase (by decide) (by decide) (by decide) (by decide) hprogram
    rw [absent] at looked
    exact .absent looked
  | stored held => exact .stored held

/-- Verification finds the events, and nothing is changed or shown by looking for them. They are
read from the stored schedule and not from that of the case. -/
theorem storedEvents_run {events : List SensorEvent} (h : FindsEvents root base w.tree events) :
    (storedEvents root base).run w = .ok events w := by
  rw [storedEvents]
  cases h with
  | absent h =>
    rw [run_bind_of_ok (holdsAt_run h)]
    rfl
  | stored held =>
    obtain ⟨text, read, parsed⟩ := held
    rw [run_bind_of_ok (holdsAt_run (holds_of_read read)), if_pos rfl, scheduleAt_run, eventsAt,
      read]
    show answered w ((Schedule.ofBytes text.toUTF8).mapError _) = _
    rw [Schedule.ofBytes, Utf8.decode_toUTF8]
    show answered w ((Schedule.parse text).mapError _) = _
    rw [parsed]
    rfl

/-- What verification finds in the folder of a case. The texts are those that the artifacts are
compared with. -/
structure Findings where
  program : String
  listing : String
  outputs : String
  events : List SensorEvent

/-- The folder has these findings. Files may be missing; then the text is empty and there are no
events. -/
structure Findings.In (f : Findings) (root : String) (base : Location) (t : FileTree) : Prop where
  program : Expects root base t "program.mlog" f.program
  listing : Expects root base t "program.lst" f.listing
  outputs : Expects root base t "out.txt" f.outputs
  events : FindsEvents root base t f.events

/-- What is shown of the program and, if it is compared, of the listing. -/
def shownTexts (name : String) (f : Findings) (compiled : Compiled)
    (withListing : Bool) : String :=
  mismatchText name "program.mlog" f.program compiled.program ++
    if withListing then mismatchText name "program.lst" f.listing compiled.listing else ""

/-- Whether the program and, if it is compared, the listing are as expected. The outputs are
looked at later. -/
def sameTexts (f : Findings) (compiled : Compiled) (withListing : Bool) : Bool :=
  compiled.program = f.program && (!withListing || compiled.listing = f.listing)

/-- What verification does once the texts are compared. It is the second half of `verifyCase`,
where the stored program is run. -/
def compareOutputs (root : String) (base : Location) (c : Case) (ticks : Int) (same : Bool) :
    Session Bool := do
  let events ← storedEvents root base
  let outputs ← outputsAt root (base ++ ["program.mlog"]) events ticks
  let outputsOk ← checkArtifact root base c.name "out.txt" outputs
  return same && outputsOk

/-- Verification first compares the texts, whether or not the outputs can be made afterwards. So
what is shown of the texts is shown in any case. -/
theorem verifyCase_run_texts {c : Case} {source : String} {compiled : Compiled} {f : Findings}
    (hsource : textAt w.tree (c.source.named root) = .ok source)
    (hcompiled : compiledOf source = .ok compiled) (found : f.In root base w.tree) (ticks : Int)
    (withListing : Bool) :
    (verifyCase root base c ticks withListing).run w =
      (compareOutputs root base c ticks (sameTexts f compiled withListing)).run
        { w with
          stdout := w.stdout ++ shownTexts c.name f compiled withListing
          stderr := w.stderr ++ noticesText source false } := by
  have read := compileAt_run hsource
  rw [hcompiled] at read
  have program := checkArtifact_run
    (w := { w with stderr := w.stderr ++ noticesText source false }) found.program c.name
    compiled.program
  rw [verifyCase, run_bind_of_ok read, run_bind_of_ok program]
  dsimp only
  cases withListing with
  | false =>
    rw [shownTexts, if_neg Bool.false_ne_true, if_neg Bool.false_ne_true, String.append_empty]
    rfl
  | true =>
    have listing := checkArtifact_run (w :=
      { w with
        stdout := w.stdout ++ mismatchText c.name "program.mlog" f.program compiled.program
        stderr := w.stderr ++ noticesText source false }) found.listing c.name compiled.listing
    rw [shownTexts, if_pos rfl, if_pos rfl, run_bind_of_ok listing, ← String.append_assoc]
    rfl

/-- Run equation of `verifyCase`, for a folder that has a program. It is run with the events that
are found. If the run fails, so does verification, and if not, the outputs are compared too. -/
theorem verifyCase_run_eq {c : Case} {source : String} {compiled : Compiled} {f : Findings}
    (hsource : textAt w.tree (c.source.named root) = .ok source)
    (hcompiled : compiledOf source = .ok compiled) (found : f.In root base w.tree)
    (hprogram : w.tree.read (Location.named root (base ++ ["program.mlog"])) =
      .ok f.program.toUTF8)
    (ticks : Int) (withListing : Bool) :
    let shown : Workspace :=
      { w with
        stdout := w.stdout ++ shownTexts c.name f compiled withListing
        stderr := w.stderr ++ noticesText source false }
    (verifyCase root base c ticks withListing).run w =
      match outputsOf f.program f.events ticks with
      | .ok fresh =>
        .ok (sameTexts f compiled withListing && decide (fresh.format = f.outputs))
          { shown with stdout := shown.stdout ++
            mismatchText c.name "out.txt" f.outputs fresh.format }
      | .error problem => .error (.failure problem) shown := by
  intro shown
  have outputs := outputsAt_run (w := shown) hprogram f.events ticks
  rw [verifyCase_run_texts hsource hcompiled found ticks withListing, compareOutputs,
    run_bind_of_ok (storedEvents_run (w := shown) found.events)]
  cases hran : outputsOf f.program f.events ticks with
  | error problem =>
    rw [hran] at outputs
    exact run_bind_of_error outputs _
  | ok fresh =>
    rw [hran] at outputs
    rw [run_bind_of_ok outputs,
      run_bind_of_ok (checkArtifact_run (w := shown) found.outputs c.name fresh.format)]
    rfl

/-- **A stored case is verified.** The only thing that shows is the notices of the compilation.
The program that is run is the stored one, and it is the one that the source compiles to. -/
theorem verifyCase_run {a : Artifacts} {c : Case} {ticks : Int} (hbase : Proper base)
    (h : a.Stored root base c ticks w.tree) (withListing : Bool) :
    (verifyCase root base c ticks withListing).run w =
      .ok true { w with stderr := w.stderr ++ noticesText a.source false } := by
  -- The source was read from a file, so nothing that is made of it is changed by one.
  obtain ⟨program, listing⟩ := noReturn_of_compiledOf (noReturn_of_textAt h.source) h.compiled
  have found : Findings.In ⟨a.compiled.program, a.compiled.listing, a.outputs.format, a.events⟩
      root base w.tree :=
    ⟨.stored h.programFile program, .stored h.listingFile listing,
      .stored h.outputsFile h.noReturn_outputs, h.schedule.findsEvents hbase h.programFile⟩
  rw [verifyCase_run_eq h.source h.compiled found h.programFile, h.outputs]
  simp [shownTexts, sameTexts]

end Tool.Golden

end Tickscript
