import Mathlib
import Tickscript.Proofs.ProgramText.Length
import Tickscript.Proofs.Session.Locations
import Tickscript.Tool.Compile

/-!
# `Tickscript.Proofs.Tool.Compilation`: all or nothing

The compiler as a tool either writes everything it was asked for or nothing at all
(`outcome_compile`). A file is emptied before its text is made, so this is not a matter of course.
It rests on two facts. Whatever can be wrong with a source is found before the first file is
touched, and code that was generated always has a text and a listing
(`exists_texts_of_compileCode`).

The listing is written in a tree that the program has been written to. The file of a program makes
no folder that was not there, since the way to it leads through folders (`isFolder_of_walk`), so
the listing still has its place (`Places.beside`).
-/

set_option autoImplicit false

namespace Tickscript

open Tickscript.Numeral Tickscript.Text

namespace FileTree

variable {t : FileTree} {p q : PathName} {place other : Location} {bytes : ByteArray}

/-! ### Two files in one tree -/

/-- A file can be written at a path, and it would be at the location `place`. Whether there is a
file already makes no difference. -/
structure Places (t : FileTree) (p : PathName) (place : Location) : Prop where
  check : p.check = .ok ()
  place : t.placeFor p = .ok place

/-- Writing at such a path puts the file at the place. -/
theorem Places.write (h : t.Places p place) (bytes : ByteArray) :
    t.write p bytes = .ok (t.withFile place bytes) :=
  write_eq_ok_iff.mpr ⟨place, h.check, h.place, rfl⟩

/-- A step leads to a location around the one it starts from, or to one that is right in it. Going
up from the working folder counts as the latter. -/
theorem move_cases (here : Location) (step : PathStep) :
    here.move step <+: here ∨ ∃ name, here.move step = here ++ [name] := by
  cases step with
  | stay => exact Or.inl (List.prefix_refl here)
  | down name => exact Or.inr ⟨name, rfl⟩
  | up =>
    show here.parent <+: here ∨ ∃ name, here.parent = here ++ [name]
    unfold Location.parent
    split
    · exact Or.inr ⟨"..", rfl⟩
    · exact Or.inr ⟨"..", rfl⟩
    · exact Or.inl (List.prefix_refl here)
    · exact Or.inl (List.dropLast_prefix here)

/-- What is around a location that was walked to are folders. By induction on the steps. -/
theorem isFolder_of_walk {here folder : Location} {steps : List PathStep}
    (start : ∀ around, around <+: here → t.isFolder around = true)
    (h : t.walk here steps = .ok folder) :
    ∀ around, around <+: folder → t.isFolder around = true := by
  induction steps generalizing here with
  | nil =>
    cases h
    exact start
  | cons step steps ih =>
    obtain ⟨next, hentered, hrest⟩ := bind_eq_ok h
    obtain ⟨hstep, hnext⟩ := enter_eq_ok_iff.mp hentered
    obtain ⟨rfl, -⟩ := stepTo_eq_ok hstep
    refine ih ?_ hrest
    intro around haround
    rcases move_cases here step with back | ⟨name, down⟩
    · exact start around (haround.trans back)
    · rw [down] at hnext haround
      -- Only the location itself is new, and a step into it has to find a folder there.
      rcases List.prefix_concat_iff.mp haround with rfl | inside
      · exact hnext
      · exact start around inside

/-- Where a path starts is a folder, and so is what is around it. -/
theorem isFolder_start (t : FileTree) (text : String) :
    ∀ around, around <+: (PathName.ofText text).start → t.isFolder around = true := by
  intro around haround
  have cases : around = [] ∨ around = ["/"] := by
    unfold PathName.ofText at haround
    dsimp only at haround
    split at haround
    · rcases List.prefix_concat_iff.mp (show around <+: [] ++ ["/"] from haround)
        with root | inside
      · exact Or.inr root
      · exact Or.inl (List.prefix_nil.mp inside)
    · exact Or.inl (List.prefix_nil.mp haround)
  rcases cases with rfl | rfl <;> simp [isFolder]

/-- A file at the place of a path makes no folder that was not there, since the folders around the
place were walked through. -/
theorem Places.isFolder_iff {text : String} (h : t.Places (.ofText text) place) :
    (t.withFile place bytes).isFolder other = true ↔ t.isFolder other = true := by
  obtain ⟨name, folder, -, -, hwalk, hstep, -⟩ := placeFor_eq_ok_iff.mp h.place
  obtain ⟨rfl, -⟩ := stepTo_eq_ok hstep
  rw [isFolder_withFile]
  refine ⟨?_, Or.inl⟩
  rintro (old | above)
  · exact old
  · -- What is above the file was walked through, so it was a folder.
    simp only [Bool.and_eq_true, List.isPrefixOf_iff_prefix, bne_iff_ne] at above
    rcases List.prefix_concat_iff.mp above.1 with same | around
    · exact absurd same above.2
    · exact isFolder_of_walk (isFolder_start t text) hwalk other around

/-- A path keeps its place when a file is written at another. The folders are the same, so the way
is. -/
theorem Places.beside {text : String} (h : t.Places (.ofText text) place) (hq : t.Places q other)
    (bytes : ByteArray) : (t.withFile place bytes).Places q other := by
  obtain ⟨name, folder, hlast, hfolder, hwalk, hstep, free⟩ := placeFor_eq_ok_iff.mp hq.place
  refine ⟨hq.check, placeFor_eq_ok_iff.mpr ⟨name, folder, hlast, hfolder, ?_, hstep, ?_⟩⟩
  · exact walk_of_grown (fun around haround => h.isFolder_iff.mpr haround) hwalk
  · rw [← Bool.not_eq_true, h.isFolder_iff, free]
    exact Bool.false_ne_true

/-- A path leads to the file at its place. What is in the file is what the tree has there. -/
theorem Places.read (h : t.Places p place) (hfile : t.files.get? place = some bytes) :
    t.read p = .ok bytes := by
  refine PathName.guarded_eq_ok_iff.mpr ⟨h.check, ?_⟩
  rw [locate_of_placeFor h.place]
  simp only [bind, Except.bind, hfile]
  rfl

/-- The files of a tree after one was put into it. -/
theorem get?_withFile (t : FileTree) (place other : Location) (bytes : ByteArray) :
    (t.withFile place bytes).files.get? other =
      if other = place then some bytes else t.files.get? other :=
  Table.get?_set ..

end FileTree

/-! ### The parts of the tool -/

/-- Normalising newlines makes a text no longer. A pair becomes one character, and all others stay
one by one. -/
theorem length_fromFile_le (text : String) : (fromFile text).length ≤ text.length := by
  have shorter : ∀ cs : List Char, (normalizeNewlines cs).length ≤ cs.length := by
    intro cs
    fun_induction normalizeNewlines cs with
    | case1 => exact Nat.le_refl 0
    | case2 rest ih =>
      simp only [List.length_cons]
      omega
    | case3 c rest _ ih =>
      simp only [List.length_cons]
      omega
  rw [fromFile, String.length_ofList, ← String.length_toList]
  exact shorter text.toList

namespace Session

/-- A text that could be made is in its file. The file is emptied first, which leaves no trace. -/
theorem writeRendered_run {path : PathName} {place : Location} {w : Workspace}
    (h : w.tree.Places path place) (text : String) :
    (writeRendered path (.ok text)).run w =
      .ok () { w with tree := w.tree.withFile place text.toUTF8 } := by
  have emptied := h.write "".toUTF8
  have written : (w.tree.withFile place "".toUTF8).write path text.toUTF8 =
      .ok (w.tree.withFile place text.toUTF8) := by
    rw [FileTree.write_of_write emptied, h.write]
  rw [writeRendered, run_bind_of_ok (writeText_run_of_ok emptied)]
  exact writeText_run_of_ok written

end Session

namespace Tool

open Tickscript.Session FileTree

/-- What is printed about the tokens of a source, if it was asked for. A source that is refused
has no tokens to be listed. -/
def tokensText (source : String) (asked : Bool) : String :=
  match Token.parse .standard source with
  | .ok statements => if asked then Token.listing statements ++ "\n" else ""
  | .error _ => ""

/-- What is printed about the compilation of a source: the warnings, and with `verbose` all
notices. -/
def noticesText (source : String) (verbose : Bool) : String :=
  String.join ((compileCode .standard .standard source).notices.map (noticeLine verbose))

/-- Compiling touches no file. It gives code, or it ends the tool with a last line on the second
channel. -/
theorem compileSource_run (path source : String) (verbose tokens : Bool) (w : Workspace) :
    (compileSource path source verbose tokens).run w =
      let shown : Workspace :=
        { w with
          stdout := w.stdout ++ tokensText source tokens
          stderr := w.stderr ++ noticesText source verbose }
      match (compileCode .standard .standard source).result with
      | .ok code => .ok code shown
      | .error fault =>
        .error (.exit 1)
          { shown with stderr := shown.stderr ++ (path ++ ": " ++ fault.message ++ "\n") } := by
  unfold compileSource tokensText noticesText compileCode
  cases Token.parse .standard source with
  | error e =>
    show EStateM.Result.error (Stop.exit 1)
        { w with stderr := w.stderr ++ (path ++ ": " ++ e.message ++ "\n") } = _
    simp [CompileFault.message]
  | ok statements =>
    -- The notices come from the tokens, so they are shown whether or not there is code.
    dsimp only
    generalize compileTokens .standard statements = compiled
    obtain ⟨result, notices⟩ := compiled
    cases tokens with
    | true => cases result <;> rfl
    | false =>
      rw [if_neg Bool.false_ne_true, if_neg Bool.false_ne_true, String.append_empty]
      cases result <;> rfl

/-- What the tool does once it has the code: the program is written first, and then the listing,
if one was asked for. -/
def writeFiles (args : Arguments) (code : List Instr) : Session Unit := do
  let target ← operand args 1
  writeRendered (.ofText target) (encode code)
  match args.path? "listing" with
  | some list => writeRendered (.ofText list) (listing code)
  | none => pure ()

section Run

variable {words : List String} {args : Arguments} {path target text : String} {tree : FileTree}
variable {place listed : Location}

/-- The tool reads, then compiles, and only then writes. So a source that does not compile is
noticed before any file is emptied. -/
theorem compile_run (hwords : compileInterface.parse words = .ok args)
    (hoperands : args.operands = [some path, some target]) {w : Workspace}
    (hsource : w.tree.read (.ofText path) = .ok text.toUTF8) :
    (compile words).run w =
      (compileSource path (fromFile text) (args.has "verbose") (args.has "tokens") >>=
        writeFiles args).run w := by
  rw [compile, run_bind_of_ok (arguments_run hwords w),
    run_bind_of_ok (operand_run (by rw [hoperands]; rfl) w),
    run_bind_of_ok (readText_run hsource)]
  rfl

/-- The files of a program and, if it was asked for, of its listing. Both are put into the tree
that the tool has found. -/
def withFiles (tree : FileTree) (place listed : Location) (asked : Bool)
    (program numbered : String) : FileTree :=
  if asked then (tree.withFile place program.toUTF8).withFile listed numbered.toUTF8
  else tree.withFile place program.toUTF8

/-- Run equation of `writeFiles` for code that has its texts. The listing finds its place in the
tree that the program was written to. -/
theorem writeFiles_run (hoperands : args.operands = [some path, some target]) {w : Workspace}
    (htarget : w.tree.Places (.ofText target) place)
    (hlisting : ∀ list, args.path? "listing" = some list → w.tree.Places (.ofText list) listed)
    {code : List Instr} {program numbered : String} (hprogram : encode code = .ok program)
    (hnumbered : listing code = .ok numbered) :
    (writeFiles args code).run w =
      .ok () { w with
        tree := withFiles w.tree place listed (args.path? "listing").isSome program
          numbered } := by
  rw [writeFiles, run_bind_of_ok (operand_run (by rw [hoperands]; rfl) w), hprogram, hnumbered,
    run_bind_of_ok (writeRendered_run htarget program)]
  cases hlist : args.path? "listing" with
  | none => rfl
  | some list =>
    exact writeRendered_run (htarget.beside (hlisting list hlist) program.toUTF8) numbered

/-- Each path leads to its own text afterwards, and other files are left alone. The two places are
different, so neither text replaces the other. -/
theorem read_withFiles (htarget : tree.Places (.ofText target) place)
    (hlisting : ∀ list, args.path? "listing" = some list →
      tree.Places (.ofText list) listed ∧ listed ≠ place)
    (program numbered : String) :
    let grown := withFiles tree place listed (args.path? "listing").isSome program numbered
    grown.read (.ofText target) = .ok program.toUTF8 ∧
      (∀ list, args.path? "listing" = some list →
        grown.read (.ofText list) = .ok numbered.toUTF8) ∧
      ∀ other, other ≠ place → (other = listed → args.path? "listing" = none) →
        grown.files.get? other = tree.files.get? other := by
  intro grown
  have kept := htarget.beside htarget program.toUTF8
  cases hlist : args.path? "listing" with
  | none =>
    have alone : grown = tree.withFile place program.toUTF8 := by
      simp only [grown, withFiles, hlist, Option.isSome_none, Bool.false_eq_true, if_false]
    rw [alone]
    refine ⟨kept.read ?_, nofun, ?_⟩
    · rw [get?_withFile, if_pos rfl]
    · intro other hother _
      rw [get?_withFile, if_neg hother]
  | some list =>
    obtain ⟨hlisted, apart⟩ := hlisting list hlist
    have both : grown = (tree.withFile place program.toUTF8).withFile listed numbered.toUTF8 := by
      simp only [grown, withFiles, hlist, Option.isSome_some, if_true]
    have placed := htarget.beside hlisted program.toUTF8
    rw [both]
    refine ⟨?_, ?_, ?_⟩
    · -- The program is still there: the listing is at another place.
      refine (placed.beside kept numbered.toUTF8).read ?_
      rw [get?_withFile, if_neg (Ne.symm apart), get?_withFile, if_pos rfl]
    · intro name hname
      cases hname
      refine (placed.beside placed numbered.toUTF8).read ?_
      rw [get?_withFile, if_pos rfl]
    · intro other hother hlisted
      have notListed : other ≠ listed := fun same => nomatch hlisted same
      rw [get?_withFile, if_neg notListed, get?_withFile, if_neg hother]

end Run

/-- **The compiler as a tool is all or nothing.** Let a command line name a source that can be
read, a place `place` for the program and, if a listing is asked for, another place `listed` for
it.

- If the source does not compile, the tool ends with exit code one, the last line that it prints
  names the source and what is wrong, and the files are as they were.
- If it compiles, the tool comes to its end. The file of the program holds what
  `Tickscript.compile` makes of the text, with its newlines normalised, and the file of the
  listing holds the listing of the same code. Neither is empty. All other files are as they were.

An address has at most as many digits as any number that is written, so the length of the source
has a bound that no file reaches. -/
theorem outcome_compile {words : List String} {args : Arguments} {path target text : String}
    {tree : FileTree} {place listed : Location} (hwords : compileInterface.parse words = .ok args)
    (hoperands : args.operands = [some path, some target])
    (hsource : tree.read (.ofText path) = .ok text.toUTF8)
    (short : text.length < Nat.pow 10 digitLimit) (htarget : tree.Places (.ofText target) place)
    (hlisting : ∀ list, args.path? "listing" = some list →
      tree.Places (.ofText list) listed ∧ listed ≠ place) :
    (∀ fault, (compileCode .standard .standard (fromFile text)).result = .error fault →
      ∃ shown stdout, (compile words).outcome tree =
        ⟨some (.exit 1),
          { tree, stdout, stderr := shown ++ (path ++ ": " ++ fault.message ++ "\n") }⟩) ∧
    ∀ code, (compileCode .standard .standard (fromFile text)).result = .ok code →
      ∃ program numbered done, Tickscript.compile (fromFile text) = .ok program ∧
        listing code = .ok numbered ∧ program ≠ "" ∧ numbered ≠ "" ∧
        (compile words).outcome tree = ⟨none, done⟩ ∧
        done.tree.read (.ofText target) = .ok program.toUTF8 ∧
        (∀ list, args.path? "listing" = some list →
          done.tree.read (.ofText list) = .ok numbered.toUTF8) ∧
        ∀ other, other ≠ place → (other = listed → args.path? "listing" = none) →
          done.tree.files.get? other = tree.files.get? other := by
  have ran := compile_run hwords hoperands (w := { tree }) hsource
  have source :=
    compileSource_run path (fromFile text) (args.has "verbose") (args.has "tokens") { tree }
  constructor
  · intro fault hfault
    rw [hfault] at source
    rw [Session.outcome, ran, run_bind_of_error source]
    exact ⟨_, _, rfl⟩
  · intro code hcode
    rw [hcode] at source
    obtain ⟨program, numbered, hprogram, hnumbered⟩ :=
      exists_texts_of_compileCode hcode (Nat.lt_of_le_of_lt (length_fromFile_le text) short)
    have compiled : Tickscript.compile (fromFile text) = .ok program := by
      rw [Tickscript.compile, compileText, hcode]
      show (encode code).mapError _ = _
      rw [hprogram]
      rfl
    -- What was shown before makes no difference to the files.
    have written : ∀ stdout stderr, (writeFiles args code).run { tree, stdout, stderr } =
        .ok ()
          { tree := withFiles tree place listed (args.path? "listing").isSome program numbered
            stdout, stderr } := fun _ _ =>
      writeFiles_run hoperands htarget (fun list hlist => (hlisting list hlist).1) hprogram
        hnumbered
    have ended : ∃ stdout stderr, (compile words).outcome tree =
        ⟨none,
          { tree := withFiles tree place listed (args.path? "listing").isSome program numbered
            stdout, stderr }⟩ := by
      rw [Session.outcome, ran, run_bind_of_ok source, written]
      exact ⟨_, _, rfl⟩
    obtain ⟨stdout, stderr, ended⟩ := ended
    exact ⟨program, numbered, _, compiled, hnumbered,
      encode_ne_empty hprogram (code_ne_nil hcode),
      listing_ne_empty hnumbered (code_ne_nil hcode),
      ended, read_withFiles htarget hlisting program numbered⟩

/-- A program goes into a folder and its listing beside the source. With a block that is closed by
the wrong word instead, nothing is written. -/
theorem outcome_compile_of_conditional :
    let words := ["gate.mls", "made/gate.mlog", "--listing=gate.lst"]
    let tree : String → FileTree :=
      fun source => { files := ⟨[(["gate.mls"], source.toUTF8)]⟩, folders := [["made"]] }
    (∃ done, (compile words).outcome (tree "if a < 1:\r\nprint(a, d);\r\nendif") = ⟨none, done⟩ ∧
      done.tree.read (.ofText "made/gate.mlog") =
        .ok "jump 2 lessThan a 1\njump 4 always\nprint a\nprintflush d\nend\n".toUTF8 ∧
      done.tree.read (.ofText "gate.lst") =
        .ok (String.toUTF8
          "0. jump 2 lessThan a 1\n1. jump 4 always\n2. print a\n3. printflush d\n4. end\n")) ∧
    ∃ shown stdout, (compile words).outcome (tree "if a < 1:\nprint(a, d);\nendfor") =
      ⟨some (.exit 1),
        { tree := tree "if a < 1:\nprint(a, d);\nendfor"
          stdout
          stderr := shown ++ "gate.mls: line 3: 'endfor' without matching 'for'\n" }⟩ := by
  intro words tree
  have parsed : compileInterface.parse words =
      .ok ⟨[some "gate.mls", some "made/gate.mlog"], [("listing", some "gate.lst")]⟩ :=
    eq_ok_of_toOption (by decide +kernel)
  have places : ∀ source, (tree source).Places (.ofText "made/gate.mlog") ["made", "gate.mlog"] :=
    fun _ => ⟨rfl, rfl⟩
  have listed : ∀ source list,
      Arguments.path? ⟨[some "gate.mls", some "made/gate.mlog"], [("listing", some "gate.lst")]⟩
        "listing" = some list →
      (tree source).Places (.ofText list) ["gate.lst"] ∧
        ["gate.lst"] ≠ ["made", "gate.mlog"] := by
    intro source list hlist
    cases hlist
    exact ⟨⟨rfl, rfl⟩, by decide⟩
  constructor
  · have compiled :
        (compileCode .standard .standard (fromFile "if a < 1:\r\nprint(a, d);\r\nendif")).result =
        .ok [.jumpTo 2 ["lessThan", "a", "1"], .jumpTo 4 ["always"], .plain .print ["a"],
          .plain .printflush ["d"], .plain .halt []] :=
      eq_ok_of_toOption (by decide +kernel)
    have text : Tickscript.compile (fromFile "if a < 1:\r\nprint(a, d);\r\nendif") =
        .ok "jump 2 lessThan a 1\njump 4 always\nprint a\nprintflush d\nend\n" :=
      eq_ok_of_toOption (by decide +kernel)
    obtain ⟨program, numbered, done, hprogram, hnumbered, -, -, ended, target, list, -⟩ :=
      (outcome_compile parsed rfl rfl (by decide +kernel) (places _) (listed _)).2 _ compiled
    rw [text] at hprogram
    cases hprogram
    have number :
        listing [.jumpTo 2 ["lessThan", "a", "1"], .jumpTo 4 ["always"], .plain .print ["a"],
          .plain .printflush ["d"], .plain .halt []] =
        .ok "0. jump 2 lessThan a 1\n1. jump 4 always\n2. print a\n3. printflush d\n4. end\n" :=
      eq_ok_of_toOption (by decide +kernel)
    rw [number] at hnumbered
    cases hnumbered
    exact ⟨done, ended, target, list "gate.lst" rfl⟩
  · have refused :
        (compileCode .standard .standard (fromFile "if a < 1:\nprint(a, d);\nendfor")).result =
        .error (.source (.unmatchedCloser .loop 3)) := by
      decide +kernel
    exact (outcome_compile parsed rfl rfl (by decide +kernel) (places _) (listed _)).1 _ refused

end Tool

end Tickscript
