import Tickscript.Machine.Trace
import Tickscript.Proofs.Machine.Cycle
import Tickscript.Proofs.ProgramText.Rereading
import Tickscript.Proofs.ProgramText.Stored

/-!
# `Tickscript.Proofs.Machine.Tracing`: a trace does not disturb the run

`runTraced` is a second loop over ticks, with a line in front of each. It could differ from `run`
in one way: a line that cannot be made ends the run. Over a program that was read from a text this
does not happen. The instruction that is shown is one of the program, so it has a text; and the
counter is a number, which is either a target that was read or the address of an instruction and
at most one more (`Traceable`).

So the traced run ends as the run does, and its trace has a line for each tick that was attempted,
the one that failed included (`runTraced_eq`). Each line is one line also for a reader who knows
all ten line breaks: an argument of an instruction holds none, and the buffer is quoted.
-/

set_option autoImplicit false

namespace Tickscript.Machine

open Tickscript.Text Tickscript.Numeral

variable {m next : Machine}

/-! ### What can be shown -/

/-- A machine whose state can be shown: its instructions have a text on one line, the loaded one
is among them, and the counter is set, to a target or to an address that is not further than the
end.

The bound on the counter is what keeps its decimal form within the limit for numbers. -/
structure Traceable (m : Machine) : Prop where
  program : ∀ i ∈ m.program, i.Legible ∧ i.OneLine
  loaded : ∀ i, m.loaded = some i → i ∈ m.program
  counter : ∃ address, m.counter = some address ∧
    (address.natAbs < Nat.pow 10 digitLimit ∨ address.natAbs ≤ m.program.size)

/-- Before the first tick the state of a program that was read can be shown: nothing is loaded,
and the counter is zero. -/
theorem traceable_start {text : String} {code : List Instr} (h : decode text = .ok code)
    (schedule : List SensorEvent) : Traceable (start code schedule) where
  program i hi := legible_of_decode h i (by simpa [start] using hi)
  loaded i hi := by cases hi
  counter := ⟨0, rfl, Or.inr (Nat.zero_le _)⟩

/-- Sensors are not shown, so their events do not matter. -/
theorem Traceable.sense (h : Traceable m) : Traceable m.sense :=
  ⟨h.program, h.loaded, h.counter⟩

/-- An instruction of the program leaves a state that can be shown. Only a jump changes the
counter, and its target was read from a text. -/
theorem Traceable.execute (h : Traceable m) {i : Instr} (hi : i ∈ m.program)
    (hexecute : m.execute i = .ok next) : Traceable next := by
  rcases execute_cases hexecute with ⟨e, rfl⟩ | ⟨hjump, rfl⟩ | ⟨-, rfl⟩
  · exact ⟨h.program, h.loaded, h.counter⟩
  · obtain ⟨-, n, htarget, hn⟩ := (h.program i hi).1.jump hjump
    exact ⟨h.program, h.loaded, n, htarget, Or.inl hn⟩
  · exact ⟨h.program, h.loaded, h.counter⟩

/-- A tick leaves a state that can be shown, whether it succeeds or not. A trace shows the state
in front of each tick, so this is what the next line needs. -/
theorem Traceable.ticked (h : Traceable m) (cycle : InCycle m) {result : Machine × Option Fault}
    (ticked : Ticked m result) : Traceable result.1 := by
  cases ticked with
  | refused fault => exact h.sense
  | left hphase => exact ⟨h.program, h.loaded, h.counter⟩
  | fetched a i hphase hcounter hi =>
    refine ⟨h.program, ?_, h.counter⟩
    intro j hj
    cases hj
    exact Array.mem_of_getElem? hi
  | latched hphase =>
    -- The counter stands at an instruction, so one further is at most the end.
    obtain ⟨i, hi, -⟩ := cycle.loaded (by simp [hphase])
    have inside : m.lastAddress < m.program.size := (Array.getElem?_eq_some_iff.mp hi).1
    refine ⟨h.program, h.loaded, m.lastAddress + 1, ?_, Or.inr ?_⟩
    · show m.counter.map (· + 1) = _
      rw [cycle.latch hphase]
      rfl
    · show ((m.lastAddress : Int) + 1).natAbs ≤ m.program.size
      omega
  | executed i next hphase hi hexecute =>
    have kept := h.sense.execute (Array.mem_of_getElem? hi) hexecute
    exact ⟨kept.program, kept.loaded, kept.counter⟩

/-- A tick that succeeds moves the clock by one, so the ticks of a trace are numbered without
gaps. -/
theorem Ticked.ticks (ticked : Ticked m (next, none)) : next.ticks = m.ticks + 1 := by
  cases ticked with
  | left hphase => rfl
  | fetched a i hphase hcounter hi => rfl
  | latched hphase => rfl
  | executed i reached hphase hi hexecute =>
    rcases execute_cases hexecute with ⟨e, rfl⟩ | ⟨-, rfl⟩ | ⟨-, rfl⟩ <;> rfl

/-! ### A line of a trace -/

/-- How the loaded instruction is shown: by its text, and by a dash before the first one is
fetched. The text is the one that the instruction has in a program. -/
def ShowsLoaded (m : Machine) (shown : String) : Prop :=
  (m.loaded = none ∧ shown = "-") ∨ ∃ i, m.loaded = some i ∧ i.render = .ok shown

/-- The line shows the machine `m` before the tick `t`. The counter is a number, and in a program
that is not absurdly long this number is within the limit for decimal texts. -/
def Shows (m : Machine) (t : Nat) (line : String) : Prop :=
  m.ticks = t ∧ ∃ address shown, m.counter = some address ∧ m.ShowsLoaded shown ∧
    (m.program.size < Nat.pow 10 digitLimit → writeInteger address = .ok (toString address)) ∧
    line = "t=" ++ toString t ++ " pc=" ++ toString address ++ " phase=" ++ m.phase.label ++
      " ir=" ++ shown ++ " buf=" ++ quote m.environment.buffer

/-- A text is on one line, for a reader who knows all ten line breaks. -/
def OnOneLine (line : String) : Prop :=
  ∀ c ∈ line.toList, isLineBreak c = false

/-- The characters of a text can be looked at one by one. -/
instance (line : String) : Decidable (OnOneLine line) :=
  decidable_of_iff (line.toList.all (!isLineBreak ·) = true) (by simp [OnOneLine])

/-- Texts on one line stay so one behind the other. A line of a trace is put together this way. -/
theorem OnOneLine.append {a b : String} (ha : OnOneLine a) (hb : OnOneLine b) :
    OnOneLine (a ++ b) := by
  intro c hc
  rw [String.toList_append] at hc
  rcases List.mem_append.mp hc with hc | hc
  · exact ha c hc
  · exact hb c hc

/-- The text of a number is on one line, as it has a minus and digits only. -/
theorem onOneLine_toString (n : Int) : OnOneLine (toString n) := by
  intro c hc
  exact of_mem_toString (P := fun c => isLineBreak c = false) (by decide) (by decide) hc

/-- A state that can be shown has its line, and it is one line. The parts of the line are the
clock, the counter, the phase, the loaded instruction and the buffer. -/
theorem Traceable.exists_traceLine (h : Traceable m) :
    ∃ line, m.traceLine = .ok (line ++ "\n") ∧ m.Shows m.ticks line ∧ OnOneLine line := by
  obtain ⟨address, hcounter, bound⟩ := h.counter
  have loaded : ∃ shown, loadedText m.loaded = .ok shown ∧ m.ShowsLoaded shown ∧
      OnOneLine shown := by
    cases hloaded : m.loaded with
    | none =>
      exact ⟨"-", rfl, Or.inl ⟨hloaded, rfl⟩, by decide⟩
    | some i =>
      obtain ⟨legible, oneLine⟩ := h.program i (h.loaded i hloaded)
      obtain ⟨shown, hrender, hline, -⟩ := legible.exists_line oneLine
      refine ⟨shown, ?_, Or.inr ⟨i, hloaded, hrender⟩, hline⟩
      rw [loadedText, hrender]
      rfl
  obtain ⟨shown, htext, shows, hshown⟩ := loaded
  have written : m.program.size < Nat.pow 10 digitLimit →
      writeInteger address = .ok (toString address) := by
    intro short
    refine writeInteger_of_lt ?_
    rcases bound with bound | bound
    · exact bound
    · exact Nat.lt_of_le_of_lt bound short
  refine ⟨_, ?_, ⟨rfl, address, shown, hcounter, shows, written, rfl⟩, ?_⟩
  · rw [traceLine, htext, hcounter]
    rfl
  · have label : OnOneLine m.phase.label := by
      cases m.phase <;> decide
    have quoted : OnOneLine (quote m.environment.buffer) := fun c => not_isLineBreak_of_mem_quote
    have names : OnOneLine "t=" ∧ OnOneLine " pc=" ∧ OnOneLine " phase=" ∧ OnOneLine " ir=" ∧
        OnOneLine " buf=" := by
      decide
    obtain ⟨t, pc, phase, ir, buf⟩ := names
    have clock := t.append (onOneLine_toString m.ticks)
    have counter := (clock.append pc).append (onOneLine_toString address)
    have loaded := (((counter.append phase).append label).append ir).append hshown
    exact (loaded.append buf).append quoted

/-! ### The traced run -/

/-- The tick number `i` of a run of at most `count` ticks is attempted: it is within the count,
the machine has not halted by then, and no tick before it has failed. A tick that fails is
attempted, and it is the last one. -/
def AttemptedIn (count : Nat) (m : Machine) (i : Nat) : Prop :=
  i < count ∧ (∀ j ≤ i, (m.after j).halted = false) ∧ ∀ j < i, (m.after j).tick.2 = none

/-- Ticks after the first one, counted from the machine that the first one has left. -/
theorem after_succ (n : Nat) (m : Machine) : m.after (n + 1) = m.tick.1.after n := by
  induction n with
  | zero => rfl
  | succ n ih =>
    show (m.after (n + 1)).tick.1 = (m.tick.1.after n).tick.1
    rw [ih]

/-- The first tick is attempted unless there is none or the machine has halted. -/
theorem attemptedIn_zero {count : Nat} :
    AttemptedIn count m 0 ↔ 0 < count ∧ m.halted = false := by
  constructor
  · rintro ⟨inside, running, -⟩
    exact ⟨inside, running 0 (Nat.le_refl 0)⟩
  · rintro ⟨inside, running⟩
    refine ⟨inside, ?_, ?_⟩
    · intro j hj
      rw [Nat.le_zero.mp hj]
      exact running
    · intro j hj
      omega

/-- A later tick is attempted if the first one succeeds and it is one of those that follow. With
`attemptedIn_zero` this is the recursion of the traced loop. -/
theorem attemptedIn_succ {count i : Nat} :
    AttemptedIn (count + 1) m (i + 1) ↔
      m.halted = false ∧ m.tick.2 = none ∧ AttemptedIn count m.tick.1 i := by
  constructor
  · rintro ⟨inside, running, succeeded⟩
    refine ⟨running 0 (by omega), succeeded 0 (by omega), by omega, ?_, ?_⟩
    · intro j hj
      rw [← after_succ]
      exact running (j + 1) (by omega)
    · intro j hj
      rw [← after_succ]
      exact succeeded (j + 1) (by omega)
  · rintro ⟨first, ok, inside, running, succeeded⟩
    refine ⟨by omega, ?_, ?_⟩
    · intro j hj
      cases j with
      | zero => exact first
      | succ j =>
        rw [after_succ]
        exact running j (by omega)
    · intro j hj
      cases j with
      | zero => exact ok
      | succ j =>
        rw [after_succ]
        exact succeeded j (by omega)

/-- The lines show the ticks of a run that were attempted, each in front of it, and are one line
each. The numbers in the lines are those of the clock. -/
structure LinesOf (count : Nat) (m : Machine) (lines : List String) : Prop where
  attempted : ∀ i, i < lines.length ↔ AttemptedIn count m i
  shows : ∀ i line, lines[i]? = some line → (m.after i).Shows (m.ticks + i) line
  oneLine : ∀ line ∈ lines, OnOneLine line

/-- A run without a tick has no lines: it has no ticks left, or the machine has halted. -/
theorem linesOf_nil {count : Nat} (h : count = 0 ∨ m.halted = true) : LinesOf count m [] where
  attempted i := by
    refine iff_of_false (by simp) ?_
    rintro ⟨inside, running, -⟩
    rcases h with h | h
    · omega
    · rw [show m.halted = false from running 0 (by omega)] at h
      cases h
  shows i line hline := by cases hline
  oneLine line hline := by cases hline

/-- A line in front of a tick that fails is the last one. It is there, because it was written
before the tick. -/
theorem linesOf_singleton {count : Nat} {line : String} (running : m.halted = false)
    (shows : m.Shows m.ticks line) (oneLine : OnOneLine line) (failed : m.tick.2 ≠ none) :
    LinesOf (count + 1) m [line] where
  attempted i := by
    cases i with
    | zero => exact iff_of_true (by simp) (attemptedIn_zero.mpr ⟨Nat.succ_pos count, running⟩)
    | succ i =>
      refine iff_of_false (by simp) fun h => ?_
      exact failed (attemptedIn_succ.mp h).2.1
  shows i other hother := by
    cases i with
    | zero =>
      cases hother
      exact shows
    | succ i => cases hother
  oneLine other hother := by
    rw [List.mem_singleton.mp hother]
    exact oneLine

/-- A line in front of a tick that succeeds comes before the lines of the ticks that follow. It is
the step of the induction below. -/
theorem LinesOf.cons {count : Nat} {line : String} {lines : List String}
    (running : m.halted = false) (htick : m.tick = (next, none))
    (clock : next.ticks = m.ticks + 1) (shows : m.Shows m.ticks line) (oneLine : OnOneLine line)
    (rest : LinesOf count next lines) :
    LinesOf (count + 1) m (line :: lines) where
  attempted i := by
    cases i with
    | zero => exact iff_of_true (by simp) (attemptedIn_zero.mpr ⟨Nat.succ_pos count, running⟩)
    | succ i =>
      rw [attemptedIn_succ, htick, List.length_cons, Nat.add_lt_add_iff_right, rest.attempted]
      exact ⟨fun h => ⟨running, rfl, h⟩, fun h => h.2.2⟩
  shows i other hother := by
    cases i with
    | zero =>
      cases hother
      exact shows
    | succ i =>
      have shown := rest.shows i other hother
      rw [clock] at shown
      rw [after_succ, htick, Nat.add_comm i, ← Nat.add_assoc]
      exact shown
  oneLine other hother := by
    rcases List.mem_cons.mp hother with rfl | hother
    · exact oneLine
    · exact rest.oneLine other hother

/-- The trace that a list of lines makes: each of them with a line break behind it. -/
def traceText (lines : List String) : String :=
  String.join (lines.map (· ++ "\n"))

/-- **A trace does not disturb the run.** The traced run comes to the same machine and the same
fault as the run, and it adds the lines of the ticks that were attempted. -/
theorem traceFor_eq (h : Traceable m) (cycle : InCycle m) (count : Nat) (trace : String) :
    ∃ lines, LinesOf count m lines ∧
      traceFor count trace m =
        ⟨trace ++ traceText lines, (m.runFor count).1, (m.runFor count).2⟩ := by
  -- The trace so far grows along the run, and the machine moves on, so both are general.
  induction count generalizing m trace with
  | zero =>
    refine ⟨[], linesOf_nil (Or.inl rfl), ?_⟩
    simp [traceFor, traceText, runFor]
  | succ count ih =>
    cases running : m.halted with
    | true =>
      refine ⟨[], linesOf_nil (Or.inr running), ?_⟩
      simp [traceFor, traceText, runFor, running]
    | false =>
      obtain ⟨line, htext, shows, oneLine⟩ := h.exists_traceLine
      cases htick : m.tick with
      | mk next outcome =>
        cases outcome with
        | some fault =>
          -- The line was written before the tick failed, so it stays.
          refine ⟨[line], linesOf_singleton running shows oneLine (by simp [htick]), ?_⟩
          simp [traceFor, traceText, runFor, running, htext, htick]
        | none =>
          have ticked := cycle.ticked running
          have next_cycle := cycle.tick
          rw [htick] at ticked next_cycle
          obtain ⟨lines, rest, hrest⟩ := ih (h.ticked cycle ticked) next_cycle
            (trace ++ (line ++ "\n"))
          refine ⟨line :: lines, rest.cons running htick ticked.ticks shows oneLine, ?_⟩
          simp only [traceFor, running, htext, htick, runFor, Bool.false_eq_true, if_false, hrest]
          simp [traceText, String.append_assoc]

/-- The same for a program that was read from a text, over any schedule and up to any limit. The
trace starts empty. -/
theorem runTraced_eq {text : String} {code : List Instr} (h : decode text = .ok code)
    (schedule : List SensorEvent) (limit : Int) :
    ∃ lines, LinesOf limit.toNat (start code schedule) lines ∧
      (start code schedule).runTraced limit =
        ⟨traceText lines, ((start code schedule).run limit).1,
          ((start code schedule).run limit).2⟩ := by
  obtain ⟨lines, hlines, hrun⟩ := traceFor_eq (traceable_start h schedule)
    (inCycle_after code schedule 0) (limit - (start code schedule).ticks).toNat ""
  have whole : limit - (start code schedule).ticks = limit := by
    show limit - ((0 : Nat) : Int) = limit
    omega
  rw [whole] at hlines hrun
  refine ⟨lines, hlines, ?_⟩
  rw [runTraced, run, whole, hrun]
  simp

end Tickscript.Machine
