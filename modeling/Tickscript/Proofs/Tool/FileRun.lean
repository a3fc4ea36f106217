import Tickscript.Proofs.Machine.Tracing
import Tickscript.Proofs.Session.Files
import Tickscript.Tool.Run

/-!
# `Tickscript.Proofs.Tool.FileRun`: running a program file

Running a program that is stored in a file gives what the program gives in memory (`outputsOf`),
wherever the trace goes: the same outputs, or the same failure. What the tool leaves behind is the
workspace it started in with the trace added, on the first channel or as a file
(`TraceSink.place`).

`runFile_run_eq` is the complete run equation of `runFile` on a stored text. Its one trace is the
same for all places that it can go to. Neither the newlines of the file nor the lines of the trace
matter to the answer; the reasons are `decode_fromFile` and `Machine.runTraced_eq`.
-/

set_option autoImplicit false

namespace Tickscript.Tool

open Tickscript.Session Tickscript.Text Tickscript.Machine

/-- What a run in memory has come to: its outputs, or the fault that has stopped it. A run that
uses up its limit has outputs, too. -/
def ending : Machine × Option Fault → Except Failure Outputs
  | (m, none) => .ok m.environment.outputs
  | (_, some fault) => .error (.machine fault)

/-- What a program text gives in memory: it is read, put into a new machine, and run. -/
def outputsOf (text : String) (schedule : List SensorEvent) (limit : Int) :
    Except Failure Outputs :=
  match decode text with
  | .error fault => .error (.decode fault)
  | .ok code => ending ((start code schedule).run limit)

/-- The workspace with a trace where it is wanted. -/
def TraceSink.place (trace : String) (w : Workspace) : TraceSink → Except FileFault Workspace
  | .nowhere => .ok w
  | .stdout => .ok { w with stdout := w.stdout ++ trace }
  | .file path => (w.tree.write path trace.toUTF8).map fun tree => { w with tree }

/-! ### The parts of the tool -/

/-- The last step of the tool answers what the run has come to. -/
theorem conclude_run (m : Machine) (fault : Option Fault) (w : Workspace) :
    (conclude m fault).run w = answered w (ending (m, fault)) := by
  cases fault <;> rfl

/-- A stored program is loaded as the program that the text stands for, whatever its newlines are
in the file. -/
theorem loadMachine_run {path : PathName} {text : String} {w : Workspace}
    (h : w.tree.read path = .ok text.toUTF8) (schedule : List SensorEvent) :
    (loadMachine path schedule).run w =
      match decode text with
      | .ok code => .ok (start code schedule) w
      | .error fault => .error (.failure (.decode fault)) w := by
  rw [loadMachine, run_bind_of_ok (readText_run h), decode_fromFile]
  cases decode text <;> rfl

/-- Emptying the file of the trace before the run makes no difference to what is in it afterwards,
but it is where a path that cannot be written to is noticed. -/
theorem prepare_runMachine_run {m : Machine} {limit : Int} {trace : String}
    (h : m.runTraced limit = ⟨trace, (m.run limit).1, (m.run limit).2⟩) (sink : TraceSink)
    (w : Workspace) :
    (sink.prepare >>= fun _ => runMachine m limit sink).run w =
      match sink.place trace w with
      | .ok after => answered after (ending (m.run limit))
      | .error fault => .error (.failure (.file fault)) w := by
  cases sink with
  | nowhere => exact conclude_run _ _ w
  | stdout =>
    show (conclude (m.runTraced limit).machine (m.runTraced limit).fault).run
      { w with stdout := w.stdout ++ (m.runTraced limit).trace } = _
    rw [h]
    exact conclude_run _ _ _
  | file path =>
    simp only [TraceSink.prepare, runMachine, TraceSink.place, h]
    rcases FileTree.write_cases w.tree path with ⟨fault, refused⟩ | ⟨location, taken⟩
    · rw [run_bind_of_error (writeText_run_of_error (refused _)), refused]
      rfl
    · -- The second writing finds the tree with the empty file in it.
      have again : (w.tree.withFile location "".toUTF8).write path trace.toUTF8 =
          .ok (w.tree.withFile location trace.toUTF8) := by
        rw [FileTree.write_of_write (taken _), taken]
      rw [run_bind_of_ok (writeText_run_of_ok (taken _)),
        run_bind_of_ok (writeText_run_of_ok again), taken]
      exact conclude_run _ _ _

/-- The lines of a trace are the lines that it was made of. No line holds a line break, so each
ends where its newline is. -/
theorem linesOf_traceText {lines : List String} (h : ∀ line ∈ lines, OnOneLine line) :
    linesOf (traceText lines) = lines := by
  have chars : (traceText lines).toList = (lines.map String.toList).flatMap (· ++ ['\n']) := by
    clear h
    induction lines with
    | nil => rfl
    | cons line lines ih =>
      have first : traceText (line :: lines) = line ++ "\n" ++ traceText lines := by
        simp [traceText]
      rw [first, String.toList_append, String.toList_append, ih]
      rfl
  have oneLine : ∀ line ∈ lines.map String.toList, ∀ c ∈ line, isLineBreak c = false := by
    intro line hline
    obtain ⟨shown, hshown, rfl⟩ := List.mem_map.mp hline
    exact h shown hshown
  rw [linesOf, chars, splitLines_unlines oneLine, List.map_map]
  simp

/-- A trace that was placed in a file is found there. It may be the file of the program itself. -/
theorem read_of_place {path : PathName} {trace : String} {w after : Workspace}
    (h : (TraceSink.file path).place trace w = .ok after) :
    after.tree.read path = .ok trace.toUTF8 := by
  simp only [TraceSink.place] at h
  cases hwrite : w.tree.write path trace.toUTF8 with
  | error fault =>
    rw [hwrite] at h
    cases h
  | ok tree =>
    rw [hwrite] at h
    cases h
    exact FileTree.read_of_write hwrite

/-! ### The whole tool -/

/-- **A file run agrees with the run in memory.** For a program text, a schedule and a limit there
is one trace. Its lines are those of the attempted ticks, each with the state in front of its
tick. The run of a file that holds the text adds this trace where it is wanted, and answers what
the text gives in memory.

Two things can come before: a text that is no program leaves the workspace as it is, and so does a
trace file that cannot be written to. The latter is the only failure that memory does not know. -/
theorem runFile_run_eq (text : String) (schedule : List SensorEvent) (limit : Int) :
    ∃ lines : List String,
      linesOf (traceText lines) = lines ∧
      (∀ code, decode text = .ok code → LinesOf limit.toNat (start code schedule) lines) ∧
      (∀ (path : PathName) (w after : Workspace),
        (TraceSink.file path).place (traceText lines) w = .ok after →
          after.tree.read path = .ok (traceText lines).toUTF8) ∧
      ∀ (path : PathName) (sink : TraceSink) (w : Workspace),
        w.tree.read path = .ok text.toUTF8 →
          (runFile path schedule limit sink).run w =
            match decode text, sink.place (traceText lines) w with
            | .error _, _ => answered w (outputsOf text schedule limit)
            | .ok _, .ok after => answered after (outputsOf text schedule limit)
            | .ok _, .error fault => .error (.failure (.file fault)) w := by
  cases hdecode : decode text with
  | error fault =>
    -- The tool stops before it looks at the place of the trace, so any lines will do.
    refine ⟨[], rfl, ?_, fun path w after => read_of_place, ?_⟩
    · intro code h
      cases h
    · intro path sink w h
      have load := loadMachine_run h schedule
      rw [hdecode] at load
      rw [runFile, run_bind_of_error load, outputsOf, hdecode]
      rfl
  | ok code =>
    obtain ⟨lines, hlines, hrun⟩ := runTraced_eq hdecode schedule limit
    refine ⟨lines, linesOf_traceText hlines.oneLine, ?_, fun path w after => read_of_place, ?_⟩
    · intro other h
      cases h
      exact hlines
    · intro path sink w h
      have load := loadMachine_run h schedule
      rw [hdecode] at load
      rw [runFile, run_bind_of_ok load, outputsOf, hdecode]
      rw [prepare_runMachine_run hrun sink w]
      cases sink.place (traceText lines) w <;> rfl

/-- A program whose lines end in two other ways fails at its first instruction. The trace file
replaces the program file, and the failure is the one of the run in memory. -/
theorem runFile_run_of_failing_program :
    let text := "op add x\rend\r\n"
    let path := PathName.ofText "demo"
    let w : Workspace := { tree := { files := ⟨[(["demo"], text.toUTF8)]⟩ } }
    w.tree.read path = .ok text.toUTF8 ∧
      ∃ (trace : String) (after : Workspace), after.tree.read path = .ok trace.toUTF8 ∧
        after.stdout = "" ∧
        (runFile path [] 5 (.file path)).run w =
          .error (.failure (.machine (.argumentCount 4 2))) after := by
  have fails : outputsOf "op add x\rend\r\n" [] 5 = .error (.machine (.argumentCount 4 2)) := by
    cbv
  have placed (bytes : ByteArray) : (PathName.ofText "demo").guarded
      (FileTree.placeFor { files := ⟨[(["demo"], bytes)]⟩ } (.ofText "demo")) = .ok ["demo"] := by
    cbv
  have found (bytes : ByteArray) :
      FileTree.read { files := ⟨[(["demo"], bytes)]⟩ } (.ofText "demo") = .ok bytes := by
    cbv
  intro text path w
  obtain ⟨lines, -, -, held, runs⟩ := runFile_run_eq text [] 5
  have written : (TraceSink.file path).place (traceText lines) w =
      .ok { w with tree := w.tree.withFile ["demo"] (traceText lines).toUTF8 } := by
    simp only [TraceSink.place, FileTree.write_eq, path, w, placed]
    rfl
  refine ⟨found _, traceText lines, _, held path w _ written, rfl, ?_⟩
  rw [runs path (.file path) w (found _), written, fails]
  cases hcode : decode text with
  | error fault =>
    rw [outputsOf, hcode] at fails
    cases fails
  | ok code => rfl

end Tickscript.Tool
