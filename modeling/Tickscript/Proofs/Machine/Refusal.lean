import Mathlib.Data.List.Induction
import Tickscript.Proofs.Machine.Cycle

/-!
# `Tickscript.Proofs.Machine.Refusal`: ticks that fail

A tick may fail at many points: an argument is missing, a literal is too long, an operation is
unknown, a value cannot be printed, there is no next address. `Machine.tick` works with results,
so a fault throws away what the tick had done to the machine. To say that there was nothing to
throw away, `Effects.tick` is the same tick as a sequence of single writes, each of which stays
when a later step fails. `Effects.run_tick` says that the two agree, faults and the machines they
leave included. For an instruction this is `Effects.run_execute`: one case for each operation, and
in each of them the writes come last.

The exception are the sensors, whose events happen at the start of every tick. A tick that failed
is tried again and its events happen again, which changes nothing more:
`Readings.advance_advance`. So a machine that has failed once stays as it is and fails in the same
way for ever.
-/

set_option autoImplicit false

namespace Tickscript

/-! ### The events of a tick, twice -/

namespace Readings

variable {events : List SensorEvent} {r : Readings}

/-- Events make their sensors known, and those that are known stay known. The induction is on the
events, with the readings that each of them leaves. -/
theorem mem_keys_foldl_record {sensor : String × String}
    (h : sensor ∈ r.keys ∨ ∃ e ∈ events, (e.object, e.property) = sensor) :
    sensor ∈ (events.foldl record r).keys := by
  induction events generalizing r with
  | nil => simpa using h
  | cons event events ih =>
    refine ih ?_
    rcases h with h | ⟨e, he, hsensor⟩
    · exact Or.inl (Table.mem_keys_set _ (Or.inr h))
    · rcases List.mem_cons.mp he with rfl | he
      · exact Or.inl (Table.mem_keys_set _ (Or.inl hsensor.symm))
      · exact Or.inr ⟨e, he, hsensor⟩

/-- An event that happens last might as well have happened first, too. The sensors of the other
events must be known, or they would arrive in another order. -/
theorem record_foldl_record (last : SensorEvent)
    (known : ∀ e ∈ events, (e.object, e.property) ∈ r.keys) :
    (events.foldl record (r.record last)).record last = (events.foldl record r).record last := by
  induction events generalizing r with
  | nil => exact Table.set_set_self ..
  | cons event events ih =>
    simp only [List.foldl_cons]
    by_cases hsensor : (last.object, last.property) = (event.object, event.property)
    · -- The event is about the same sensor, so it overwrites the first copy of `last`.
      have overwritten : (r.record last).record event = r.record event := by
        rw [record, record, hsensor, Table.set_set_self, record]
      rw [overwritten]
    · -- The event is about another sensor, so the first copy can move past it.
      have exchanged : (r.record last).record event = (r.record event).record last :=
        Table.set_comm (known event List.mem_cons_self) hsensor _ _
      rw [exchanged]
      exact ih fun e he => Table.mem_keys_set _ (Or.inr (known e (List.mem_cons_of_mem _ he)))

/-- Events that happen twice in the same order leave what they left the first time. The induction
is from the back, because only the last event about a sensor counts. -/
theorem foldl_record_twice (events : List SensorEvent) (r : Readings) :
    events.foldl record (events.foldl record r) = events.foldl record r := by
  -- The last event is taken off: all other sensors are known by the second time.
  induction events using List.reverseRecOn with
  | nil => rfl
  | append_singleton events last ih =>
    simp only [List.foldl_append, List.foldl_cons, List.foldl_nil]
    rw [record_foldl_record last fun e he => mem_keys_foldl_record (Or.inr ⟨e, he, rfl⟩), ih]

/-- The events of a tick that happen again change nothing. A tick that failed and is tried again
makes them happen again. -/
theorem advance_advance (schedule : List SensorEvent) (tick : Int) (r : Readings) :
    (r.advance schedule tick).advance schedule tick = r.advance schedule tick :=
  foldl_record_twice _ r

end Readings

/-- The sensor events of the current tick change nothing the second time, as the clock has not
moved in between. -/
theorem Machine.sense_sense (m : Machine) : m.sense.sense = m.sense := by
  simp only [Machine.sense, Readings.advance_advance]

/-! ### A tick, write by write -/

/-- A computation that changes a machine write by write. A fault ends it and leaves the machine
with all that was written until then. -/
abbrev Effects := EStateM Fault Machine

namespace Effects

variable {m : Machine} {α : Type}

/-- Goes on with a result, or fails with its fault. A step that only computes is made of this, and
it writes nothing. -/
def attempt : Except Fault α → Effects α
  | .ok a => pure a
  | .error fault => throw fault

/-- Writes to the environment. Whatever fails later, this write stays. -/
def change (f : Environment → Environment) : Effects Unit :=
  modify fun m => { m with environment := f m.environment }

/-- The argument of an instruction at a position. A missing one is a fault, and it is found only
when the argument is needed. -/
def argument (i : Instr) (n : Nat) : Effects String :=
  match i.args[n]? with
  | some arg => pure arg
  | none => throw .missingArgument

/-- The value of an argument, read in the machine as it is at that moment. A literal that is too
long is a fault. -/
def read (arg : String) : Effects Value := do
  attempt ((← get).environment.read arg)

/-- The value of an argument that may be absent, as those of a jump may. -/
def readOptional : Option String → Effects Value
  | some arg => read arg
  | none => pure .null

/-- Executes an instruction. Arguments are looked for when they are needed, and a message is
delivered before the buffer is emptied. -/
def execute (i : Instr) : Effects Unit :=
  match i.opcode with
  | .set => do
    let dest ← argument i 0
    let value ← read (← argument i 1)
    change (·.write dest value)
  | .op =>
    match i.args with
    | [operation, dest, left, right] => do
      let a ← read left
      let b ← read right
      let value ← attempt (Value.compute operation a b)
      change (·.write dest value)
    | args => throw (.argumentCount 4 args.length)
  | .sensor =>
    match i.args with
    | [dest, object, property] => do
      let value := (← get).environment.readings.read object property
      change (·.write dest value)
    | args => throw (.argumentCount 3 args.length)
  | .jump => do
    let condition ← argument i 0
    let a ← readOptional i.args[1]?
    let b ← readOptional i.args[2]?
    if ← attempt (Value.compare condition a b) then
      modify fun m => { m with counter := i.target }
  | .print => do
    let value ← read (← argument i 0)
    let text ← attempt (value.format.mapError .numeral)
    change fun e => { e with buffer := e.buffer ++ text }
  | .printflush => do
    let device ← argument i 0
    change fun e => { e with outputs := e.outputs.deliver device e.buffer }
    change fun e => { e with buffer := "" }
  | .halt => modify fun m => { m with halted := true }
  | .other word => throw (.unknownOpcode word)

/-- The events of the current tick happen, one after the other, each of them as a write of its
own. -/
def senseEach : Effects Unit := do
  let m ← get
  (m.schedule.filter (·.tick = (m.ticks : Int))).forM fun event =>
    change fun e => { e with readings := e.readings.record event }

/-- Fetches the instruction at the counter, or halts if the counter has left the program. The
three writes of a fetch come one after the other. -/
def fetch : Effects Unit := do
  match (← get).counter with
  | none => throw .unsetCounter
  | some address =>
    if address < 0 then modify fun m => { m with halted := true }
    else
      match (← get).program[address.toNat]? with
      | none => modify fun m => { m with halted := true }
      | some i =>
        modify fun m => { m with lastAddress := address.toNat }
        modify fun m => { m with loaded := some i }
        modify fun m => { m with phase := .latch }

/-- Moves the counter on, and then the phase. Nothing in between can fail. -/
def latch : Effects Unit := do
  modify fun m => { m with counter := m.counter.map (· + 1) }
  modify fun m => { m with phase := .execute }

/-- Executes the loaded instruction, and counts it. A fault of the instruction ends this before
anything is counted. -/
def finishInstr : Effects Unit := do
  match (← get).loaded with
  | none => pure ()
  | some i => execute i
  modify fun m => { m with executed := m.executed + 1 }
  modify fun m => { m with phase := .fetch }

/-- What the current phase does, write by write. -/
def phaseStep : Effects Unit := do
  match (← get).phase with
  | .fetch => fetch
  | .latch => latch
  | .execute => finishInstr

/-- One tick. A halted machine does nothing, and the clock moves only if the phase has not
failed. -/
def tick : Effects Unit := do
  unless (← get).halted do
    senseEach
    phaseStep
    modify fun m => { m with ticks := m.ticks + 1 }

/-! ### The writes come last -/

/-- What is left of `m` after a computation that writes nothing before it fails: the machine
itself in case of a fault, and the next one otherwise. -/
def settle (m : Machine) : Except Fault Machine → EStateM.Result Fault Machine Unit
  | .ok next => .ok () next
  | .error fault => .error fault m

/-- A step that writes nothing leaves it to the rest of a computation to settle. The machine that
the rest starts from is still `m`. -/
theorem run_attempt_bind (x : Except Fault α) {f : α → Effects Unit}
    {g : α → Except Fault Machine} (h : ∀ a, (f a).run m = settle m (g a)) :
    (attempt x >>= f).run m = settle m (x >>= g) := by
  cases x with
  | ok a => exact h a
  | error fault => rfl

/-- Reading an argument writes nothing, so it is a step as in `run_attempt_bind`. -/
theorem run_read_bind (arg : String) {f : Value → Effects Unit} {g : Value → Except Fault Machine}
    (h : ∀ value, (f value).run m = settle m (g value)) :
    (read arg >>= f).run m = settle m (m.environment.read arg >>= g) :=
  run_attempt_bind (m.environment.read arg) h

/-- Reading an argument that may be absent writes nothing. An absent one is read as nothing and
cannot fail. -/
theorem run_readOptional_bind (arg : Option String) {f : Value → Effects Unit}
    {g : Value → Except Fault Machine} (h : ∀ value, (f value).run m = settle m (g value)) :
    (readOptional arg >>= f).run m = settle m (m.readOptional arg >>= g) := by
  cases arg with
  | none => exact h .null
  | some arg => exact run_read_bind arg h

/-- Printing writes the buffer only once there is a text to add. A value that has no text is a
fault, and the buffer is as before. -/
theorem run_print (value : Value) (m : Machine) :
    (do
      let text ← attempt (value.format.mapError .numeral)
      change fun e => { e with buffer := e.buffer ++ text } : Effects Unit).run m =
      settle m (m.environment.print value >>= fun e => .ok { m with environment := e }) := by
  unfold Environment.print
  cases value.format <;> rfl

/-- An instruction that fails has written nothing, whatever its operation and its arguments are;
one that succeeds has made the writes that `Machine.execute` tells. There is one case for each
operation, and within it one for each number of arguments. -/
theorem run_execute (i : Instr) (m : Machine) : (execute i).run m = settle m (m.execute i) := by
  obtain ⟨opcode, args, target⟩ := i
  cases opcode with
  | set =>
    match args with
    | [] => rfl
    | [dest] => rfl
    | dest :: source :: rest => exact run_read_bind source fun value => rfl
  | op =>
    match args with
    | [operation, dest, left, right] =>
      refine run_read_bind left fun a => run_read_bind right fun b => ?_
      exact run_attempt_bind (Value.compute operation a b) fun value => rfl
    | [] => rfl
    | [_] => rfl
    | [_, _] => rfl
    | [_, _, _] => rfl
    | _ :: _ :: _ :: _ :: _ :: _ => rfl
  | sensor =>
    match args with
    | [dest, object, property] => rfl
    | [] => rfl
    | [_] => rfl
    | [_, _] => rfl
    | _ :: _ :: _ :: _ :: _ => rfl
  -- The operands of a jump may be absent, so its arguments are looked up one by one.
  | jump =>
    match args with
    | [] => rfl
    | condition :: rest =>
      refine run_readOptional_bind rest[0]? fun a => run_readOptional_bind rest[1]? fun b => ?_
      refine run_attempt_bind (Value.compare condition a b) fun taken => ?_
      cases taken <;> rfl
  | print =>
    match args with
    | [] => rfl
    | source :: rest => exact run_read_bind source fun value => run_print value m
  | printflush =>
    match args with
    | [] => rfl
    | device :: rest => rfl
  | halt => rfl
  | other word => rfl

/-- Events that happen one after the other happen as they do all at once. The induction is on the
events. -/
theorem run_recordAll (events : List SensorEvent) (m : Machine) :
    (events.forM fun event =>
        change fun e => { e with readings := e.readings.record event }).run m =
      .ok () { m with environment := { m.environment with
        readings := events.foldl Readings.record m.environment.readings } } := by
  induction events generalizing m with
  | nil => rfl
  | cons event events ih => exact ih _

/-- The events of the current tick never fail, so their writes are all made before the phase
begins. -/
theorem run_senseEach (m : Machine) : senseEach.run m = .ok () m.sense :=
  run_recordAll _ m

/-- Fetching fails before it writes: the only fault is a counter that was never set, and that is
looked at first. -/
theorem run_fetch (m : Machine) : fetch.run m = settle m m.fetch := by
  obtain ⟨program, schedule, environment, counter, loaded, lastAddress, phase, ticks, executed,
    halted⟩ := m
  cases counter with
  | none => rfl
  | some address =>
    simp only [fetch, Machine.fetch, EStateM.run_bind, EStateM.run_get]
    by_cases hneg : address < 0
    · simp only [hneg, if_true]
      rfl
    · simp only [hneg, if_false, EStateM.run_bind, EStateM.run_get]
      cases program[address.toNat]? <;> rfl

/-- The loaded instruction is counted only if it succeeds. The writes before that are those of the
instruction, and `run_execute` has settled them. -/
theorem run_finishInstr (m : Machine) : finishInstr.run m = settle m m.finishInstr := by
  obtain ⟨program, schedule, environment, counter, loaded, lastAddress, phase, ticks, executed,
    halted⟩ := m
  cases loaded with
  | none => rfl
  | some i =>
    simp only [finishInstr, Machine.finishInstr, EStateM.run_bind, EStateM.run_get, run_execute]
    cases Machine.execute _ i <;> rfl

/-- A phase that fails has written nothing, whichever phase it is. -/
theorem run_phaseStep (m : Machine) : phaseStep.run m = settle m m.phaseStep := by
  simp only [phaseStep, Machine.phaseStep, EStateM.run_bind, EStateM.run_get]
  cases m.phase with
  | fetch => exact run_fetch m
  | latch => rfl
  | execute => exact run_finishInstr m

/-- What a tick leaves, as the outcome of a computation. Both keep the machine in case of a fault,
so the two can be compared in all cases. -/
def outcome : Machine × Option Fault → EStateM.Result Fault Machine Unit
  | (m, none) => .ok () m
  | (m, some fault) => .error fault m

/-- A tick made of single writes leaves the machine that `Machine.tick` gives, and fails exactly
when that does, with the same fault. -/
theorem run_tick (m : Machine) : tick.run m = outcome m.tick := by
  cases running : m.halted with
  | true =>
    simp only [tick, EStateM.run_bind, EStateM.run_get, running, Machine.tick_of_halted running]
    rfl
  | false =>
    -- The events cannot fail, so the tick is the phase on a machine that has read its sensors.
    have steps : tick.run m =
        (do phaseStep; modify fun m => { m with ticks := m.ticks + 1 } : Effects Unit).run
          m.sense := by
      simp only [tick, EStateM.run_bind, EStateM.run_get, running, Bool.false_eq_true, if_false,
        run_senseEach]
    rw [steps, EStateM.run_bind, run_phaseStep]
    cases hstep : m.sense.phaseStep with
    | ok next =>
      rw [Machine.tick_of_ok running hstep]
      rfl
    | error fault =>
      rw [Machine.tick_refused running hstep]
      rfl

end Effects

/-! ### Failing once is failing for ever -/

namespace Machine

variable {m : Machine} {fault : Fault}

/-- A tick that fails is one of a running machine whose phase failed, and it has read the sensors.
Nothing else can make a tick fail. -/
theorem tick_eq_of_refused (refused : m.tick.2 = some fault) :
    m.halted = false ∧ m.sense.phaseStep = .error fault ∧ m.tick = (m.sense, some fault) := by
  cases running : m.halted with
  | true =>
    rw [tick_of_halted running] at refused
    cases refused
  | false =>
    cases hstep : m.sense.phaseStep with
    | ok next =>
      rw [tick_of_ok running hstep] at refused
      cases refused
    | error found =>
      have htick := tick_refused running hstep
      rw [htick] at refused
      cases refused
      exact ⟨rfl, rfl, htick⟩

/-- A machine that has failed fails again, and is left as it is. The sensors are read again, which
changes nothing, and so the phase fails for the same reason. -/
theorem tick_sense_of_refused (refused : m.tick.2 = some fault) :
    m.sense.tick = (m.sense, some fault) := by
  obtain ⟨running, hstep, -⟩ := tick_eq_of_refused refused
  have again : m.sense.sense.phaseStep = .error fault := by rw [sense_sense, hstep]
  rw [tick_refused (m := m.sense) running again, sense_sense]

/-- What stands still stays where it is for any number of ticks, be it halted or stuck at a
fault. -/
theorem after_of_tick_eq {outcome : Option Fault} (h : m.tick = (m, outcome)) (n : Nat) :
    m.after n = m :=
  after_induction (P := (· = m)) rfl (fun reached hreached => by rw [hreached, h]) n

/-- **A failing tick changes nothing and stays failing.** The machine that a failing tick leaves
is the one before it, but for the sensor events of that tick; this is also what is left if the
tick is made write by write. However often the machine is asked again, it stays the same in all
its parts and fails with the same fault. The program may be any list of instructions and `m` any
state, so this holds of every state that a run reaches. -/
theorem refused_tick_stays_refused (refused : m.tick.2 = some fault) :
    let left : Machine := { m with environment := { m.environment with
      readings := m.environment.readings.advance m.schedule m.ticks } }
    m.tick.1 = left ∧ Effects.tick.run m = .error fault left ∧
      ∀ n, left.after n = left ∧ (left.after n).tick = (left, some fault) := by
  intro left
  obtain ⟨-, -, htick⟩ := tick_eq_of_refused refused
  have again : left.tick = (left, some fault) := tick_sense_of_refused refused
  refine ⟨by rw [htick]; rfl, by rw [Effects.run_tick, htick]; rfl, fun n => ?_⟩
  rw [after_of_tick_eq again n]
  exact ⟨rfl, again⟩

/-- An operation without its operands, after a variable was set. The level of the tank is measured
in the tick that fails. -/
theorem refused_tick_of_short_operation :
    let m := (start [.plain .set ["x", "1"], .plain .op ["div", "x"]]
      [⟨5, "tank", "level", .int 3⟩]).after 5
    let left : Machine := { m with environment := { m.environment with
      readings := m.environment.readings.advance m.schedule m.ticks } }
    m.tick.2 = some (.argumentCount 4 2) ∧ left.environment.store.get? "x" = some (.int 1) ∧
      left.environment.readings.read "tank" "level" = .int 3 ∧ m.tick.1 = left ∧
      Effects.tick.run m = .error (.argumentCount 4 2) left ∧
      ∀ n, left.after n = left ∧ (left.after n).tick = (left, some (.argumentCount 4 2)) := by
  intro m left
  have refused : m.tick.2 = some (.argumentCount 4 2) := rfl
  exact ⟨refused, rfl, rfl, refused_tick_stays_refused refused⟩

end Machine

end Tickscript
