import Tickscript.Proofs.Machine.Refusal

/-!
# `Tickscript.Proofs.Machine.Atomic`: three ticks as one step

`Atomic` is an interpreter without a clock and without phases. It executes an instruction in one
step, with the counter already moved on and with the sensors as a parameter. `Atomic.run` gives
the sensors of each step: the step that executes instruction number `j`, from zero, sees the
events of the ticks from 0 to `3 * j + 2`, which are all that have happened when the machine
executes it.

The machine is in step with this interpreter after every tick. `InStep` says how: as long as an
instruction is in progress, its effect is still to come, and the interpreter stands at its address
(`Machine.committed`). There is a lemma for each phase, and `InStep.synchronised` puts them
together. A tick that fails is no exception, since it changes nothing but the sensors, and these
only to what the next try needs (`Machine.sense_sense`).

The other end of a run is a counter outside of the program. Then the machine halts in the first of
the three ticks, so its clock stands one tick behind a multiple of three (`Gone`). The clock does
not tell this from a run that is in progress, and neither does the counter: after the last
instruction of a program it lies outside too. What tells is that the machine was about to fetch at
such a counter (`Machine.Leaves`).
-/

set_option autoImplicit false

namespace Tickscript

/-! ### The sensors after a number of ticks -/

/-- The events of the first `n` ticks in the order in which they happen: by their tick and, within
a tick, by their place in the schedule. -/
def eventsBefore (schedule : List SensorEvent) (n : Nat) : List SensorEvent :=
  (List.range n).flatMap fun (tick : Nat) => schedule.filter (·.tick = (tick : Int))

/-- The events before a tick are those from tick zero on, and no others. An event at a negative
tick never happens. -/
theorem mem_eventsBefore {schedule : List SensorEvent} {n : Nat} {e : SensorEvent} :
    e ∈ eventsBefore schedule n ↔ e ∈ schedule ∧ 0 ≤ e.tick ∧ e.tick < n := by
  simp only [eventsBefore, List.mem_flatMap, List.mem_range, List.mem_filter, decide_eq_true_eq]
  constructor
  · rintro ⟨tick, hlt, he, htick⟩
    exact ⟨he, by omega, by omega⟩
  · rintro ⟨he, hnonneg, hlt⟩
    exact ⟨e.tick.toNat, by omega, he, by omega⟩

/-- What the sensors show after the events of the first `n` ticks. They show nothing at the start,
so this depends on the schedule alone. -/
def readingsBefore (schedule : List SensorEvent) (n : Nat) : Readings :=
  (eventsBefore schedule n).foldl Readings.record {}

/-- Another tick brings its own events. This is how the sensors of the machine, which advance tick
by tick, are compared with those of a step. -/
theorem readingsBefore_succ (schedule : List SensorEvent) (n : Nat) :
    readingsBefore schedule (n + 1) = (readingsBefore schedule n).advance schedule n := by
  simp only [readingsBefore, eventsBefore, List.range_succ, List.flatMap_append,
    List.foldl_append, List.flatMap_cons, List.flatMap_nil, List.append_nil, Readings.advance]

/-! ### One step for an instruction -/

/-- The instruction at an address; `none` outside of the program. An address may be negative,
because a jump may have any target. -/
def instrAt? (program : List Instr) (address : Int) : Option Instr :=
  if address < 0 then none else program[address.toNat]?

/-- The state of the interpreter: what an instruction can see or change, without the clock, the
phase and the loaded instruction. -/
structure Atomic where
  counter : Option Int := some 0
  store : Table String Value := {}
  buffer : String := ""
  outputs : Outputs := {}
  halted : Bool := false
deriving DecidableEq, Repr

namespace Atomic

/-- The environment in which an instruction is executed, with sensors that show `r`. The sensors
are not part of the state, because the interpreter does not know when events happen. -/
def environment (s : Atomic) (r : Readings) : Environment :=
  { store := s.store, buffer := s.buffer, readings := r, outputs := s.outputs }

/-- Takes over an environment, but for its sensors, which no action changes. -/
def adopt (s : Atomic) (e : Environment) : Atomic :=
  { s with store := e.store, buffer := e.buffer, outputs := e.outputs }

/-- The value of an argument that may be absent, as those of a jump may. An absent one is
nothing. -/
def readOptional (s : Atomic) (r : Readings) : Option String → Except Fault Value
  | some arg => (s.environment r).read arg
  | none => .ok .null

/-- Performs an action. This is written out again rather than taken from the machine, so that the
interpreter can be read on its own. -/
def perform (r : Readings) (s : Atomic) : Action → Except Fault Atomic
  | .set dest source => do
    let value ← (s.environment r).read source
    return s.adopt ((s.environment r).write dest value)
  | .compute operation dest left right => do
    let a ← (s.environment r).read left
    let b ← (s.environment r).read right
    let value ← Value.compute operation a b
    return s.adopt ((s.environment r).write dest value)
  | .sense dest object property =>
    .ok (s.adopt ((s.environment r).write dest (r.read object property)))
  | .jump condition left right target => do
    let a ← s.readOptional r left
    let b ← s.readOptional r right
    if ← Value.compare condition a b then return { s with counter := target } else return s
  | .print source => do
    let value ← (s.environment r).read source
    return s.adopt (← (s.environment r).print value)
  | .flush device => .ok (s.adopt ((s.environment r).flush device))
  | .halt => .ok { s with halted := true }

/-- Executes the instruction at the counter, which has moved on before. The interpreter halts if
there is no instruction at the counter, and fails if there is no counter. A halted interpreter
stays as it is. -/
def step (program : List Instr) (r : Readings) (s : Atomic) : Except Fault Atomic :=
  if s.halted then .ok s
  else
    match s.counter with
    | none => .error .unsetCounter
    | some address =>
      match instrAt? program address with
      | none => .ok { s with halted := true }
      | some i => i.action.bind (perform r { s with counter := some (address + 1) })

/-- The first `k` steps of a program. Step number `j`, from zero, sees the events of the ticks
from 0 to `3 * j + 2`. A fault ends the run. -/
def run (program : List Instr) (schedule : List SensorEvent) : Nat → Except Fault Atomic
  | 0 => .ok {}
  | k + 1 => (run program schedule k).bind (step program (readingsBefore schedule (3 * k + 3)))

variable {program : List Instr} {r : Readings} {s : Atomic}

/-- One more step, from a state that the steps before have led to. -/
theorem run_succ {schedule : List SensorEvent} {k : Nat} (h : run program schedule k = .ok s) :
    run program schedule (k + 1) = s.step program (readingsBefore schedule (3 * k + 3)) := by
  rw [run, h]
  rfl

/-- An interpreter whose counter has left the program halts. This counts as a step, although no
instruction is executed. -/
theorem step_of_outside {address : Int} (running : s.halted = false)
    (hcounter : s.counter = some address) (outside : instrAt? program address = none) :
    s.step program r = .ok { s with halted := true } := by
  simp only [step, running, hcounter, outside, Bool.false_eq_true, if_false]

/-- An interpreter at an address of the program executes the instruction there. The counter has
moved on before, so a jump overwrites it. -/
theorem step_of_inside {address : Int} {i : Instr} (running : s.halted = false)
    (hcounter : s.counter = some address) (inside : instrAt? program address = some i) :
    s.step program r = i.action.bind (perform r { s with counter := some (address + 1) }) := by
  simp only [step, running, hcounter, inside, Bool.false_eq_true, if_false]

end Atomic

/-! ### The machine as an interpreter -/

namespace Machine

variable {m next : Machine} {i : Instr} {program : List Instr} {schedule : List SensorEvent}

/-- What the interpreter knows of a machine. Two machines that differ in the clock or in the
sensors may look the same to it. -/
def atomic (m : Machine) : Atomic :=
  { counter := m.counter, store := m.environment.store, buffer := m.environment.buffer,
    outputs := m.environment.outputs, halted := m.halted }

/-- A machine performs an action as the interpreter does, with the sensors of the machine. There
is one case for each action, and in each the same things are read in the same order. -/
theorem atomic_perform (m : Machine) (action : Action) :
    (m.perform action).map atomic = m.atomic.perform m.environment.readings action := by
  -- Both read an argument that may be absent in the same way.
  have optional : ∀ arg,
      m.atomic.readOptional m.environment.readings arg = m.readOptional arg := by
    intro arg
    cases arg <;> rfl
  cases action with
  | set dest source =>
    show (m.environment.read source >>= _).map atomic = m.environment.read source >>= _
    cases m.environment.read source <;> rfl
  | compute operation dest left right =>
    show (m.environment.read left >>= _).map atomic = m.environment.read left >>= _
    cases m.environment.read left with
    | error fault => rfl
    | ok a =>
      show (m.environment.read right >>= _).map atomic = m.environment.read right >>= _
      cases m.environment.read right with
      | error fault => rfl
      | ok b =>
        show (Value.compute operation a b >>= _).map atomic = Value.compute operation a b >>= _
        cases Value.compute operation a b <;> rfl
  | sense dest object property => rfl
  | jump condition left right target =>
    simp only [perform, Atomic.perform, optional]
    cases m.readOptional left with
    | error fault => rfl
    | ok a =>
      show (m.readOptional right >>= _).map atomic = m.readOptional right >>= _
      cases m.readOptional right with
      | error fault => rfl
      | ok b =>
        show (Value.compare condition a b >>= _).map atomic = Value.compare condition a b >>= _
        cases Value.compare condition a b with
        | error fault => rfl
        | ok taken => cases taken <;> rfl
  | print source =>
    show (m.environment.read source >>= _).map atomic = m.environment.read source >>= _
    cases m.environment.read source with
    | error fault => rfl
    | ok value =>
      show (m.environment.print value >>= _).map atomic = m.environment.print value >>= _
      cases m.environment.print value <;> rfl
  | flush device => rfl
  | halt => rfl

/-- A machine executes an instruction as the interpreter does. If the instruction has no action,
both fail for that reason. -/
theorem atomic_execute (m : Machine) (i : Instr) :
    (m.execute i).map atomic = i.action.bind (m.atomic.perform m.environment.readings) := by
  unfold execute
  cases i.action with
  | error fault => rfl
  | ok action => exact atomic_perform m action

/-- An action leaves the sensors alone: they change at the start of a tick and at no other
time. -/
theorem readings_of_perform {action : Action} (h : m.perform action = .ok next) :
    next.environment.readings = m.environment.readings := by
  cases action with
  | set dest source =>
    obtain ⟨value, -, h⟩ := bind_eq_ok h
    cases h
    rfl
  | compute operation dest left right =>
    obtain ⟨a, -, h⟩ := bind_eq_ok h
    obtain ⟨b, -, h⟩ := bind_eq_ok h
    obtain ⟨value, -, h⟩ := bind_eq_ok h
    cases h
    rfl
  | jump condition left right target =>
    obtain ⟨a, -, h⟩ := bind_eq_ok h
    obtain ⟨b, -, h⟩ := bind_eq_ok h
    obtain ⟨taken, -, h⟩ := bind_eq_ok h
    cases taken <;> cases h <;> rfl
  | print source =>
    obtain ⟨value, -, h⟩ := bind_eq_ok h
    obtain ⟨e, he, h⟩ := bind_eq_ok h
    cases h
    unfold Environment.print at he
    split at he <;> cases he
    rfl
  | _ =>
    cases h
    rfl

/-- An instruction leaves the sensors, the clock, the program and the schedule alone, and it does
not count itself. -/
theorem kept_of_execute (h : m.execute i = .ok next) :
    next.environment.readings = m.environment.readings ∧ next.ticks = m.ticks ∧
      next.executed = m.executed ∧ next.program = m.program ∧ next.schedule = m.schedule := by
  obtain ⟨action, -, hperform⟩ := bind_eq_ok h
  refine ⟨readings_of_perform hperform, ?_⟩
  rcases execute_cases h with ⟨e, rfl⟩ | ⟨-, rfl⟩ | ⟨-, rfl⟩ <;> exact ⟨rfl, rfl, rfl, rfl⟩

/-! ### In step -/

/-- What the interpreter knows of a machine without the instruction in progress: it stands at the
address of that instruction, also after the counter has moved on. The effect of the instruction is
still to come. -/
def committed (m : Machine) : Atomic :=
  { m.atomic with
    counter := if m.phase = .execute then some (m.lastAddress : Int) else m.counter }

/-- Between two instructions nothing is in progress, and the interpreter stands at the counter. -/
theorem committed_of_fetch (h : m.phase = .fetch) : m.committed = m.atomic := by
  simp only [committed, h, reduceCtorEq, if_false]
  rfl

/-- The next tick of the machine halts it, because the counter is outside of the program. -/
def Leaves (m : Machine) : Prop :=
  m.halted = false ∧ m.phase = .fetch ∧ ∃ address, m.counter = some address ∧
    instrAt? m.program.toList address = none

/-- A machine over a program in step with the interpreter: it has executed as many instructions as
the interpreter has made steps, and three ticks have passed for each of them. The sensors are such
that the next tick brings them up to date, whether it is the first try of that tick or not. -/
structure InStep (program : List Instr) (schedule : List SensorEvent) (m : Machine) : Prop where
  program_eq : m.program = program.toArray
  schedule_eq : m.schedule = schedule
  cycle : InCycle m
  clock : m.ticks = 3 * m.executed + m.phase.offset
  readings : m.sense.environment.readings = readingsBefore schedule (m.ticks + 1)
  steps : Atomic.run program schedule m.executed = .ok m.committed

/-- A machine that has left its program: it halted one tick into an instruction that was not
there, which the interpreter counts as a step. -/
structure Gone (program : List Instr) (schedule : List SensorEvent) (m : Machine) : Prop where
  halted : m.halted = true
  phase : m.phase = .fetch
  clock : m.ticks = 3 * m.executed + 1
  steps : Atomic.run program schedule (m.executed + 1) = .ok m.atomic

/-- The sensors after a tick are up to date for the next one. The three lemmas for the phases
share this, since every tick reads the sensors in the same way. -/
theorem InStep.readings_next (h : InStep program schedule m)
    (hreadings : next.environment.readings = m.sense.environment.readings)
    (hschedule : next.schedule = m.schedule) (hticks : next.ticks = m.ticks + 1) :
    next.sense.environment.readings = readingsBefore schedule (next.ticks + 1) := by
  show next.environment.readings.advance next.schedule next.ticks = _
  rw [readingsBefore_succ, hreadings, h.readings, hschedule, h.schedule_eq, hticks]

/-- A machine stays in step with its sensors up to date: this is what a failing tick leaves. -/
theorem InStep.sense (h : InStep program schedule m) : InStep program schedule m.sense where
  program_eq := h.program_eq
  schedule_eq := h.schedule_eq
  cycle := h.cycle.sense
  clock := h.clock
  readings := by
    rw [sense_sense]
    exact h.readings
  steps := h.steps

/-- What one tick does to a machine that is in step. It fails exactly like the next step of the
interpreter, and stays in step; or it leaves the program, as the interpreter does; or it stays in
step with the interpreter. `Leaves` tells the second case from the third. -/
inductive Synchronised (program : List Instr) (schedule : List SensorEvent)
    (m : Machine) : Prop where
  | refused (fault : Fault) (htick : m.tick = (m.sense, some fault)) (stays : ¬m.Leaves)
      (step : Atomic.run program schedule (m.executed + 1) = .error fault)
  | left (hnone : m.tick.2 = none) (leaves : m.Leaves) (gone : Gone program schedule m.tick.1)
  | kept (hnone : m.tick.2 = none) (stays : ¬m.Leaves) (inStep : InStep program schedule m.tick.1)

/-- A machine that is not about to fetch does not leave the program, wherever its counter is. -/
theorem not_leaves_of_phase (h : m.phase ≠ .fetch) : ¬m.Leaves :=
  fun leaves => h leaves.2.1

/-- The first tick of an instruction. Without a counter it fails, and with one outside of the
program it is the last. Otherwise the instruction is loaded, and the interpreter does nothing. -/
theorem InStep.fetch (h : InStep program schedule m) (running : m.halted = false)
    (hphase : m.phase = .fetch) : Synchronised program schedule m := by
  have steps := h.steps
  rw [committed_of_fetch hphase] at steps
  have clock := h.clock
  rw [hphase] at clock
  have cycle := h.cycle.tick
  rcases tick_of_fetch running hphase with
    ⟨hcounter, htick⟩ | ⟨address, hcounter, outside, htick⟩ | ⟨a, i, hcounter, hi, htick⟩
  · refine .refused .unsetCounter htick (fun leaves => ?_) ?_
    · obtain ⟨-, -, address, haddress, -⟩ := leaves
      rw [hcounter] at haddress
      cases haddress
    · rw [Atomic.run_succ steps]
      have hrunning : m.atomic.halted = false := running
      have hnone : m.atomic.counter = none := hcounter
      simp only [Atomic.step, hrunning, hnone, Bool.false_eq_true, if_false]
  · -- The counter is on either side of the program, and the interpreter finds nothing there.
    have absent : instrAt? program address = none := by
      unfold instrAt?
      rcases outside with hneg | hnone
      · rw [if_pos hneg]
      · rw [h.program_eq, List.getElem?_toArray] at hnone
        rw [hnone, ite_self]
    refine .left (by rw [htick]) ⟨running, hphase, address, hcounter, ?_⟩ ?_
    · rw [h.program_eq]
      exact absent
    · rw [htick]
      refine ⟨rfl, hphase, congrArg (· + 1) clock, ?_⟩
      show Atomic.run program schedule (m.executed + 1) = _
      rw [Atomic.run_succ steps, Atomic.step_of_outside running hcounter absent]
      rfl
  · refine .kept (by rw [htick]) (fun leaves => ?_) ?_
    · obtain ⟨-, -, address, haddress, absent⟩ := leaves
      rw [hcounter] at haddress
      cases haddress
      have hnat : ¬(a : Int) < 0 := by omega
      rw [instrAt?, if_neg hnat, Int.toNat_natCast, Array.getElem?_toList, hi] at absent
      cases absent
    · rw [htick] at cycle ⊢
      exact ⟨h.program_eq, h.schedule_eq, cycle, congrArg (· + 1) clock,
        h.readings_next rfl rfl rfl, steps⟩

/-- The second tick of an instruction always succeeds. The interpreter does nothing here either:
the counter of the machine moves, and what it knows of the machine does not. -/
theorem InStep.latch (h : InStep program schedule m) (running : m.halted = false)
    (hphase : m.phase = .latch) : Synchronised program schedule m := by
  have htick := tick_latch running hphase
  have clock := h.clock
  rw [hphase] at clock
  have cycle := h.cycle.tick
  refine .kept (by rw [htick]) (not_leaves_of_phase (by simp [hphase])) ?_
  rw [htick] at cycle ⊢
  -- The counter moves on, but the interpreter still stands where it was before.
  have stands : m.latched.committed = m.committed := by
    simp only [committed, hphase, reduceCtorEq, if_false, h.cycle.latch hphase]
    rfl
  exact ⟨h.program_eq, h.schedule_eq, cycle, congrArg (· + 1) clock, h.readings_next rfl rfl rfl,
    h.steps.trans (congrArg Except.ok stands.symm)⟩

/-- The third tick of an instruction is the step of the interpreter. By then the sensors show the
events of all three ticks, and these are the ones that the step is given. -/
theorem InStep.execute (h : InStep program schedule m) (running : m.halted = false)
    (hphase : m.phase = .execute) : Synchronised program schedule m := by
  obtain ⟨i, hi, hloaded⟩ := h.cycle.loaded (by simp [hphase])
  have clock := h.clock
  rw [hphase] at clock
  have stays : ¬m.Leaves := not_leaves_of_phase (by simp [hphase])
  -- What the interpreter executes is what the machine executes after its sensor events.
  have step : Atomic.run program schedule (m.executed + 1) = (m.sense.execute i).map atomic := by
    have hcounter : m.committed.counter = some (m.lastAddress : Int) := by
      simp only [committed, hphase, if_true]
    have inside : instrAt? program (m.lastAddress : Int) = some i := by
      have hnat : ¬(m.lastAddress : Int) < 0 := by omega
      rw [h.program_eq, List.getElem?_toArray] at hi
      rw [instrAt?, if_neg hnat, Int.toNat_natCast, hi]
    have moved : { m.committed with counter := some ((m.lastAddress : Int) + 1) } =
        m.sense.atomic := by
      rw [← h.cycle.execute hphase]
      rfl
    have sensors : readingsBefore schedule (3 * m.executed + 3) =
        m.sense.environment.readings := by
      rw [h.readings, clock]
      rfl
    rw [Atomic.run_succ h.steps, Atomic.step_of_inside running hcounter inside, moved, sensors,
      atomic_execute]
  cases hexecute : m.sense.execute i with
  | error fault =>
    refine .refused fault (tick_execute_error running hphase hloaded hexecute) stays ?_
    rw [step, hexecute]
    rfl
  | ok next =>
    have htick := tick_execute running hphase hloaded hexecute
    obtain ⟨hreadings, hticks, hexecuted, hprogram, hschedule⟩ := kept_of_execute hexecute
    refine .kept (by rw [htick]) stays ?_
    rw [htick]
    refine ⟨hprogram.trans h.program_eq, hschedule.trans h.schedule_eq, .of_fetch rfl, ?_, ?_, ?_⟩
    · show next.ticks + 1 = 3 * (next.executed + 1)
      rw [hticks, hexecuted]
      show m.ticks + 1 = 3 * (m.executed + 1)
      rw [clock]
      show 3 * m.executed + 2 + 1 = _
      omega
    · exact h.readings_next hreadings hschedule (congrArg (· + 1) hticks)
    · show Atomic.run program schedule (next.executed + 1) = .ok next.counted.committed
      rw [hexecuted, committed_of_fetch rfl]
      show Atomic.run program schedule (m.executed + 1) = .ok next.atomic
      rw [step, hexecute]
      rfl

/-- Every tick of a running machine that is in step is synchronised with the interpreter, whatever
the phase is. -/
theorem InStep.synchronised (h : InStep program schedule m) (running : m.halted = false) :
    Synchronised program schedule m := by
  cases hphase : m.phase with
  | fetch => exact h.fetch running hphase
  | latch => exact h.latch running hphase
  | execute => exact h.execute running hphase

/-- A machine at its start is in step: no time has passed, and the interpreter has made no
step. -/
theorem inStep_start (program : List Instr) (schedule : List SensorEvent) :
    InStep program schedule (start program schedule) where
  program_eq := rfl
  schedule_eq := rfl
  cycle := .of_fetch rfl
  clock := rfl
  readings := by
    rw [readingsBefore_succ]
    rfl
  steps := rfl

/-! ### Runs -/

/-- Within its first `n` ticks the machine has halted because the counter was outside of the
program. The other way to halt is the instruction for it. -/
def HasLeft (m : Machine) (n : Nat) : Prop :=
  ∃ j < n, (m.after j).Leaves

/-- After any number of ticks, failed ones included, a machine is in step with the interpreter
unless it has left the program. The induction is on the number of ticks, and one tick is
`InStep.synchronised`. -/
theorem inStep_or_gone (program : List Instr) (schedule : List SensorEvent) (n : Nat) :
    let m := start program schedule
    (¬m.HasLeft n ∧ InStep program schedule (m.after n)) ∨
      (m.HasLeft n ∧ Gone program schedule (m.after n)) := by
  intro m
  induction n with
  | zero => exact Or.inl ⟨fun ⟨j, hlt, _⟩ => absurd hlt (Nat.not_lt_zero j), inStep_start _ _⟩
  | succ n ih =>
    have keeps : m.HasLeft n → m.HasLeft (n + 1) :=
      fun ⟨j, hlt, leaves⟩ => ⟨j, Nat.lt_succ_of_lt hlt, leaves⟩
    -- The last tick is the only new one that the machine could have left with.
    have stays : ¬m.HasLeft n → ¬(m.after n).Leaves → ¬m.HasLeft (n + 1) := by
      rintro before now ⟨j, hlt, leaves⟩
      rcases Nat.lt_succ_iff_lt_or_eq.mp hlt with hlt | rfl
      · exact before ⟨j, hlt, leaves⟩
      · exact now leaves
    show (_ ∧ InStep program schedule (m.after n).tick.1) ∨
      (_ ∧ Gone program schedule (m.after n).tick.1)
    rcases ih with ⟨before, inStep⟩ | ⟨left, gone⟩
    · cases running : (m.after n).halted with
      | true =>
        rw [tick_of_halted running]
        refine Or.inl ⟨stays before fun leaves => ?_, inStep⟩
        rw [leaves.1] at running
        cases running
      | false =>
        cases inStep.synchronised running with
        | refused fault htick hstays step =>
          rw [htick]
          exact Or.inl ⟨stays before hstays, inStep.sense⟩
        | left hnone leaves gone => exact Or.inr ⟨⟨n, Nat.lt_succ_self n, leaves⟩, gone⟩
        | kept hnone hstays next => exact Or.inl ⟨stays before hstays, next⟩
    · rw [tick_of_halted gone.halted]
      exact Or.inr ⟨keeps left, gone⟩

/-- How a machine over a program stands to the interpreter, where `left` says whether it has left
the program:

- `clock`, `clock_left`: three ticks have passed for each instruction that was executed, and those
  of the instruction in progress; a machine that has left the program has halted one tick later;
- `latch`, `execute`: where the counter is while an instruction is in progress;
- `loaded`: the instruction in progress is the one at `lastAddress`, inside the program;
- `atomic`: when the clock shows `3 * k`, the machine is where `k` steps of the interpreter lead
  to;
- `left_atomic`: the interpreter halts with one more step if the machine has left the program;
- `refused`: if a tick fails, the next step of the interpreter fails with the same fault. -/
structure Refines (program : List Instr) (schedule : List SensorEvent) (left : Prop)
    (m : Machine) : Prop where
  clock : ¬left → m.ticks = 3 * m.executed + m.phase.offset
  clock_left : left → m.halted = true ∧ m.phase = .fetch ∧ m.ticks = 3 * m.executed + 1
  latch : m.phase = .latch → m.counter = some (m.lastAddress : Int)
  execute : m.phase = .execute → m.counter = some (m.lastAddress + 1 : Int)
  loaded : m.phase ≠ .fetch → ∃ i, m.lastAddress < program.length ∧
    program[m.lastAddress]? = some i ∧ m.loaded = some i
  atomic : ∀ k, m.ticks = 3 * k → Atomic.run program schedule k = .ok m.atomic
  left_atomic : left → Atomic.run program schedule (m.executed + 1) = .ok m.atomic
  refused : ∀ fault, m.tick.2 = some fault →
    Atomic.run program schedule (m.executed + 1) = .error fault

/-- A machine that is in step refines the interpreter. What is left to show is about the clock: it
tells the phase, and between two instructions also the number of steps. -/
theorem InStep.refines {left : Prop} (h : InStep program schedule m) (hleft : ¬left) :
    Refines program schedule left m where
  clock _ := h.clock
  clock_left hl := absurd hl hleft
  latch := h.cycle.latch
  execute := h.cycle.execute
  loaded hphase := by
    obtain ⟨i, hi, hloaded⟩ := h.cycle.loaded hphase
    rw [h.program_eq, List.getElem?_toArray] at hi
    exact ⟨i, (List.getElem?_eq_some_iff.mp hi).1, hi, hloaded⟩
  atomic k hk := by
    have clock := h.clock
    rw [hk] at clock
    -- Only between two instructions is the clock at a multiple of three.
    have hphase : m.phase = .fetch := by
      cases hphase : m.phase with
      | fetch => rfl
      | latch =>
        rw [hphase] at clock
        simp only [Phase.offset] at clock
        omega
      | execute =>
        rw [hphase] at clock
        simp only [Phase.offset] at clock
        omega
    rw [hphase] at clock
    have hexecuted : k = m.executed := by
      simp only [Phase.offset] at clock
      omega
    rw [hexecuted, h.steps, committed_of_fetch hphase]
  left_atomic hl := absurd hl hleft
  refused fault hfault := by
    obtain ⟨running, -, -⟩ := tick_eq_of_refused hfault
    cases h.synchronised running with
    | refused found htick stays step =>
      rw [htick] at hfault
      cases hfault
      exact step
    | left hnone leaves gone =>
      rw [hnone] at hfault
      cases hfault
    | kept hnone stays inStep =>
      rw [hnone] at hfault
      cases hfault

/-- A machine that has left its program refines the interpreter, which has halted too. Its clock
is not a multiple of three, so `atomic` asks nothing. -/
theorem Gone.refines {left : Prop} (h : Gone program schedule m) (hleft : left) :
    Refines program schedule left m where
  clock hl := absurd hleft hl
  clock_left _ := ⟨h.halted, h.phase, h.clock⟩
  latch hphase := by
    rw [h.phase] at hphase
    cases hphase
  execute hphase := by
    rw [h.phase] at hphase
    cases hphase
  loaded hphase := absurd h.phase hphase
  atomic k hk := by
    have clock := h.clock
    omega
  left_atomic _ := h.steps
  refused fault hfault := by
    rw [tick_of_halted h.halted] at hfault
    cases hfault

/-- **The three phases refine an atomic interpreter.** Over any list of instructions and any
schedule, a machine stands to the interpreter as `Refines` says, after any number of ticks. The
events that a step of the interpreter sees are those of the ticks up to the one in which the
machine executes the instruction, and no others. -/
theorem refines_atomic (program : List Instr) (schedule : List SensorEvent) :
    let m := start program schedule
    (∀ n, Refines program schedule (m.HasLeft n) (m.after n)) ∧
      ∀ (j : Nat) (e : SensorEvent), e ∈ eventsBefore schedule (3 * j + 3) ↔
        e ∈ schedule ∧ 0 ≤ e.tick ∧ e.tick ≤ 3 * j + 2 := by
  intro m
  refine ⟨fun n => ?_, fun j e => ?_⟩
  · rcases inStep_or_gone program schedule n with ⟨before, inStep⟩ | ⟨left, gone⟩
    · exact inStep.refines before
    · exact gone.refines left
  · rw [mem_eventsBefore]
    have : e.tick < ((3 * j + 3 : Nat) : Int) ↔ e.tick ≤ 3 * (j : Int) + 2 := by omega
    rw [this]

end Machine

end Tickscript
