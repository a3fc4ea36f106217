import Tickscript.Proofs.Machine.Branching
import Tickscript.Proofs.Script.Names
import Tickscript.Proofs.Script.Placement

/-!
# `Tickscript.Proofs.Script.Simulation`: the machine follows the script

The machine runs flat code, takes three ticks for an instruction and keeps the flag of the loops
among its variables. `At` is the relation that links it to a script: the machine is about to fetch
the instruction at an address, and its environment shows the state of the script, the flag apart.

`Follows` says that the machine does what an ending of the script says: it reaches the end of the
code in a state that shows the final one, or it fails with the same fault in a state that shows
the one of the script, or it runs on for as many ticks as the loops were given rounds. There is a
lemma for each form of instruction, then one for each form of statement, and `follows_evaluate`
puts them together by induction over the script. A loop is an induction over its rounds inside of
that.

The sensors must not change while the machine runs, so all events of the schedule lie in the past,
or in the tick that comes next.
-/

set_option autoImplicit false

namespace Tickscript

namespace Script

variable {code : List Instr} {r : Readings} {a b : Nat} {s s' : State} {e : Environment}
  {m : Machine} {i : Instr}

/-! ### Environments and states -/

/-- An environment shows a state: the same variables, but for the flag of the loops, the same
messages, and no text that waits. -/
structure Shows (e : Environment) (s : State) : Prop where
  store : ∀ name, name ≠ loopFlag → e.store.get? name = s.store.get? name
  outputs : e.outputs = s.outputs
  buffer : e.buffer = ""

/-- Operands other than the flag are read alike. Numbers and literals do not depend on the
variables, and all other operands are names of variables. -/
theorem Shows.read (h : Shows e s) {arg : String} (hne : arg ≠ loopFlag) :
    e.read arg = s.read arg := by
  unfold Environment.read State.read Value.ofOperand
  rw [h.store arg hne]

/-- Both write the same variable, and nothing else changes on either side. -/
theorem Shows.write (h : Shows e s) (name : String) (value : Value) :
    Shows (e.write name value) (s.write name value) := by
  refine ⟨fun other hne => ?_, h.outputs, h.buffer⟩
  rw [Environment.write, State.write, Table.get?_set, Table.get?_set, h.store other hne]

/-- Writing the flag does not show. The machine does this once for each test of a loop. -/
theorem Shows.write_loopFlag (h : Shows e s) (value : Value) :
    Shows (e.write loopFlag value) s := by
  refine ⟨fun other hne => ?_, h.outputs, h.buffer⟩
  rw [Environment.write, Table.get?_set, if_neg hne, h.store other hne]

/-! ### Machines at an address -/

/-- A machine that is about to fetch the instruction at `a`. Its sensors show `r` from the next
tick on: no event comes later. -/
structure Ready (code : List Instr) (r : Readings) (a : Nat) (m : Machine) : Prop where
  program : m.program = code.toArray
  running : m.halted = false
  phase : m.phase = .fetch
  counter : m.counter = some (a : Int)
  readings : m.environment.readings.advance m.schedule m.ticks = r
  quiet : ∀ event ∈ m.schedule, event.tick ≤ m.ticks

/-- A machine that is about to fetch the instruction at `a`, in an environment that shows `s`.
This is the relation between the machine and the script. -/
structure At (code : List Instr) (r : Readings) (a : Nat) (s : State) (m : Machine) : Prop where
  ready : Ready code r a m
  shows : Shows m.environment s

/-- Once all events have happened, sensors do not change. No event is due at a later tick. -/
theorem advance_of_quiet {schedule : List SensorEvent} {now : Nat}
    (quiet : ∀ event ∈ schedule, event.tick ≤ now) {later : Nat} (hlater : now < later)
    (readings : Readings) : readings.advance schedule later = readings := by
  have none : schedule.filter (·.tick = (later : Int)) = [] := by
    refine List.filter_eq_nil_iff.mpr fun event hevent => ?_
    have := quiet event hevent
    simp only [decide_eq_true_eq]
    omega
  rw [Readings.advance, none]
  rfl

/-- An instruction finds the environment of the machine, with its sensors up to date. The
environment has not changed otherwise since the instruction was fetched. -/
theorem Ready.environment_prepared (h : Ready code r a m) (i : Instr) :
    (m.prepared a i).environment = { m.environment with readings := r } := by
  -- Of the three ticks of an instruction only the first can still bring events.
  have settled : m.readingsAhead 3 = r := by
    rw [Machine.readingsAhead, Machine.readingsAhead, Machine.readingsAhead,
      Machine.readingsAhead, advance_of_quiet h.quiet (by omega),
      advance_of_quiet h.quiet (by omega)]
    exact h.readings
  rw [Machine.prepared, settled]

/-- An instruction that changes the environment and the counter takes the machine on. It takes
three ticks, and afterwards the machine is about to fetch again. -/
theorem Ready.proceed (h : Ready code r a m) (hi : code[a]? = some i)
    (hexecute : (m.prepared a i).execute i =
      .ok { m.prepared a i with environment := e, counter := some (b : Int) })
    (hreadings : e.readings = r) :
    ∃ reached, m.runFor 3 = (reached, none) ∧ Ready code r b reached ∧
      reached.environment = e := by
  have hprogram : m.program[a]? = some i := by
    rw [h.program, List.getElem?_toArray]
    exact hi
  refine ⟨_, Machine.runFor_cycle h.running h.phase h.counter hprogram hexecute, ?_, rfl⟩
  have later : m.ticks < m.ticks + 2 + 1 := by omega
  refine ⟨h.program, h.running, rfl, rfl, ?_, fun event hevent => ?_⟩
  · exact (advance_of_quiet h.quiet later e.readings).trans hreadings
  · have := h.quiet event hevent
    show event.tick ≤ ((m.ticks + 2 + 1 : Nat) : Int)
    omega

/-- An instruction that fails stops the machine where it is. The state is the one in which the
script has failed. -/
theorem At.refuse (h : At code r a s m) (hi : code[a]? = some i) {fault : Fault}
    (hexecute : (m.prepared a i).execute i = .error fault) :
    ∃ reached, m.runFor 3 = (reached, some fault) ∧ Shows reached.environment s := by
  have hprogram : m.program[a]? = some i := by
    rw [h.ready.program, List.getElem?_toArray]
    exact hi
  refine ⟨_, Machine.runFor_cycle_error h.ready.running h.ready.phase h.ready.counter hprogram
    hexecute, ?_⟩
  rw [h.ready.environment_prepared]
  exact ⟨h.shows.store, h.shows.outputs, h.shows.buffer⟩

/-! ### Following an ending -/

/-- The machine does what an ending says. It reaches the address `b`, or it fails alike, or it has
run for `ticks` ticks at least and goes on. -/
def Follows (code : List Instr) (r : Readings) (b ticks : Nat) (m : Machine) : Ending → Prop
  | .finished s => ∃ n reached, m.runFor n = (reached, none) ∧ At code r b s reached
  | .stopped fault s =>
    ∃ n reached, m.runFor n = (reached, some fault) ∧ Shows reached.environment s
  | .unfinished => ∃ n reached, ticks ≤ n ∧ m.runFor n = (reached, none) ∧ reached.halted = false

/-- Some ticks, and then what the machine does from there. The ticks add up, which matters for a
run that goes on. -/
theorem Follows.after {k ticks : Nat} {reached : Machine} {ending : Ending}
    (hrun : m.runFor k = (reached, none)) (h : Follows code r b ticks reached ending) :
    Follows code r b (k + ticks) m ending := by
  cases ending with
  | finished s =>
    obtain ⟨n, last, hn, atEnd⟩ := h
    exact ⟨k + n, last, by rw [Machine.runFor_trans hrun, hn], atEnd⟩
  | stopped fault s =>
    obtain ⟨n, last, hn, shows⟩ := h
    exact ⟨k + n, last, by rw [Machine.runFor_trans hrun, hn], shows⟩
  | unfinished =>
    obtain ⟨n, last, hle, hn, running⟩ := h
    exact ⟨k + n, last, by omega, by rw [Machine.runFor_trans hrun, hn], running⟩

/-- To run for fewer ticks is to ask for less. The lemmas above count every tick, but only the
tests of loops have to be counted. -/
theorem Follows.mono {ticks fewer : Nat} {ending : Ending} (hle : fewer ≤ ticks)
    (h : Follows code r b ticks m ending) : Follows code r b fewer m ending := by
  cases ending with
  | finished s => exact h
  | stopped fault s => exact h
  | unfinished =>
    obtain ⟨n, last, hticks, hn, running⟩ := h
    exact ⟨n, last, Nat.le_trans hle hticks, hn, running⟩

/-- What comes after an ending is followed from where the machine is then. With this the code of
two parts is followed part by part. -/
theorem Follows.andThen {c ticks : Nat} {ending : Ending} {next : State → Ending}
    (h : Follows code r b ticks m ending)
    (hnext : ∀ {s reached}, At code r b s reached → Follows code r c ticks reached (next s)) :
    Follows code r c ticks m (ending.andThen next) := by
  cases ending with
  | finished s =>
    obtain ⟨n, reached, hn, there⟩ := h
    exact ((hnext there).after hn).mono (Nat.le_add_left _ _)
  | stopped fault s => exact h
  | unfinished => exact h

/-! ### Single instructions -/

/-- The environment that an instruction finds shows the state, since sensors are no part of it. -/
theorem At.shows_now (h : At code r a s m) : Shows { m.environment with readings := r } s :=
  ⟨h.shows.store, h.shows.outputs, h.shows.buffer⟩

/-- An instruction that calculates a value and writes it. The value may be a fault, and then both
sides stop. The next lemmas are cases of this one. -/
theorem At.follows_write {ticks : Nat} {dest : String} (h : At code r a s m)
    (hi : code[a]? = some i) (value : Except Fault Value)
    (hexecute : ∀ p : Machine, p.environment = { m.environment with readings := r } →
      p.execute i = value.bind fun v =>
        .ok { p with environment := p.environment.write dest v }) :
    Follows code r (a + 1) ticks m (Ending.ofStep s (value.map (s.write dest))) := by
  have found := h.ready.environment_prepared i
  have done := hexecute (m.prepared a i) found
  cases value with
  | error fault =>
    obtain ⟨reached, hrun, shows⟩ := h.refuse hi done
    exact ⟨3, reached, hrun, shows⟩
  | ok v =>
    obtain ⟨reached, hrun, ready, henvironment⟩ :=
      h.ready.proceed (b := a + 1) hi done (by rw [found]; rfl)
    refine ⟨3, reached, hrun, ready, ?_⟩
    rw [henvironment, found]
    exact h.shows_now.write dest v

/-- A copy of an operand. Only the source must not be the flag; it does no harm to write there. -/
theorem At.follows_set {ticks : Nat} {dest source : String} (h : At code r a s m)
    (hi : code[a]? = some (.plain .set [dest, source])) (hne : source ≠ loopFlag) :
    Follows code r (a + 1) ticks m (Ending.ofStep s (s.copy dest source)) := by
  refine h.follows_write hi _ fun p hp => ?_
  rw [← h.shows_now.read hne, ← hp]
  rfl

/-- The value of an operation on two operands, in the machine that executes it and in the state
that this machine shows. -/
theorem At.perform_operation {left right : String} (h : At code r a s m) (word dest : String)
    (hleft : left ≠ loopFlag) (hright : right ≠ loopFlag) {p : Machine}
    (hp : p.environment = { m.environment with readings := r }) :
    p.execute (.plain .op [word, dest, left, right]) =
      (s.operate word left right).bind fun v =>
        .ok { p with environment := p.environment.write dest v } := by
  have computed : computeIn p.environment.store word left right = s.operate word left right := by
    rw [hp, State.operate, ← h.shows_now.read hleft, ← h.shows_now.read hright]
    rfl
  rw [Machine.execute_operation, computed]
  cases s.operate word left right <;> rfl

/-- An operator of the table or the point. The point reads a sensor and does not look at
variables. -/
theorem At.follows_combine {ticks : Nat} {dest left right : String} {op : Token}
    (h : At code r a s m) (hi : code[a]? = some (combineInstr .standard dest left op right))
    (hleft : left ≠ loopFlag) (hright : right ≠ loopFlag) :
    Follows code r (a + 1) ticks m
      (Ending.ofStep s (s.combine .standard r dest left op right)) := by
  unfold combineInstr at hi
  unfold State.combine
  split at hi
  · rename_i hsensor
    rw [if_pos hsensor]
    refine h.follows_write hi (.ok (r.read left right)) fun p hp => ?_
    show p.perform (.sense dest left right) = _
    rw [Machine.perform, hp]
    rfl
  · rename_i hsensor
    rw [if_neg hsensor]
    exact h.follows_write hi _ fun p hp => h.perform_operation _ dest hleft hright hp

/-- The step of a loop. Without one that is written out, the machine adds the number that is
written `1`, which is what the script does. -/
theorem At.follows_advance {ticks : Nat} {counter : String} {step : Option Step}
    (h : At code r a s m) (hi : code[a]? = some (advanceInstr .standard counter step))
    (hcounter : counter ≠ loopFlag)
    (hstep : ∀ st ∈ step, st.left ≠ loopFlag ∧ st.right ≠ loopFlag) :
    Follows code r (a + 1) ticks m (Ending.ofStep s (s.advance .standard r counter step)) := by
  cases step with
  | some step =>
    obtain ⟨hleft, hright⟩ := hstep step rfl
    exact h.follows_combine hi hleft hright
  | none =>
    refine h.follows_write hi _ fun p hp => ?_
    have one : s.read "1" = .ok (.int 1) := rfl
    have added := h.perform_operation "add" counter hcounter (by decide : "1" ≠ loopFlag) hp
    rw [advanceInstr, added, State.operate, one]
    cases s.read counter with
    | error fault => rfl
    | ok value => rfl

/-- A jump that is always taken. Nothing in the environment changes. -/
theorem At.goto (h : At code r a s m) (hi : code[a]? = some (.jumpTo (b : Nat) [always])) :
    ∃ reached, m.runFor 3 = (reached, none) ∧ At code r b s reached := by
  have found := h.ready.environment_prepared (.jumpTo (b : Nat) [always])
  obtain ⟨reached, hrun, ready, henvironment⟩ :=
    h.ready.proceed (b := b) (e := (m.prepared a (.jumpTo (b : Nat) [always])).environment) hi rfl
      (by rw [found])
  refine ⟨reached, hrun, ready, ?_⟩
  rw [henvironment, found]
  exact h.shows_now

/-! ### Tests -/

/-- The machine does what the outcome of a test says: it goes to `yes` or to `no`, or it fails
alike. It takes at least one tick, so that rounds of a loop take as many ticks. -/
def Decides (code : List Instr) (r : Readings) (yes no : Nat) (s : State) (m : Machine) :
    Except Fault Bool → Prop
  | .error fault => ∃ n reached, m.runFor n = (reached, some fault) ∧ Shows reached.environment s
  | .ok holds => ∃ n reached, 0 < n ∧ m.runFor n = (reached, none) ∧
      At code r (if holds then yes else no) s reached

/-- Where the test does not hold, the machine may go on to another place. A conditional has a
second jump for this. -/
theorem Decides.goto {yes no last : Nat} {result : Except Fault Bool}
    (h : Decides code r yes no s m result)
    (hi : code[no]? = some (.jumpTo (last : Nat) [always])) :
    Decides code r yes last s m result := by
  cases result with
  | error fault => exact h
  | ok holds =>
    obtain ⟨n, reached, hpos, hrun, there⟩ := h
    cases holds with
    | true => exact ⟨n, reached, hpos, hrun, there⟩
    | false =>
      obtain ⟨final, hgoto, atLast⟩ := there.goto hi
      exact ⟨n + 3, final, by omega, by rw [Machine.runFor_trans hrun, hgoto], atLast⟩

/-- A jump on a condition: to its target if the condition holds, else to the next instruction. The
operands may be the flag, so the outcome is that of the machine's own variables. -/
theorem At.jump {word left right : String} {result : Except Fault Bool} (h : At code r a s m)
    (hi : code[a]? = some (.jumpTo (b : Nat) [word, left, right]))
    (hresult : compareIn m.environment.store word left right = result) :
    Decides code r b (a + 1) s m result := by
  have found := h.ready.environment_prepared (.jumpTo (b : Nat) [word, left, right])
  generalize hp : m.prepared a (.jumpTo (b : Nat) [word, left, right]) = p at found
  have hexecute : p.execute (.jumpTo (b : Nat) [word, left, right]) =
      result.map fun taken => if taken then { p with counter := some (b : Int) } else p := by
    rw [← hresult, show m.environment.store = p.environment.store by rw [found]]
    exact Machine.execute_jump p word left right (some (b : Int))
  cases result with
  | error fault =>
    obtain ⟨reached, hrun, shows⟩ := h.refuse hi (by rw [hp, hexecute]; rfl)
    exact ⟨3, reached, hrun, shows⟩
  | ok holds =>
    have done : (m.prepared a (.jumpTo (b : Nat) [word, left, right])).execute
          (.jumpTo (b : Nat) [word, left, right]) =
        .ok { m.prepared a (.jumpTo (b : Nat) [word, left, right]) with
          environment := p.environment
          counter := some ((if holds then b else a + 1 : Nat) : Int) } := by
      rw [hp, hexecute]
      subst hp
      -- The counter was moved on already, so a jump that is not taken leaves it alone.
      cases holds <;> rfl
    obtain ⟨reached, hrun, ready, henvironment⟩ := h.ready.proceed hi done (by rw [found])
    refine ⟨3, reached, by decide, hrun, ready, ?_⟩
    rw [henvironment, found]
    exact h.shows_now

/-- The first jump of a conditional. Its test is the one of the script, as neither operand is the
flag. -/
theorem At.branch {test : Test} (h : At code r a s m)
    (hi : code[a]? =
      some (.jumpTo (b : Nat) [operationWord .standard test.op, test.left, test.right]))
    (hleft : test.left ≠ loopFlag) (hright : test.right ≠ loopFlag) :
    Decides code r b (a + 1) s m (s.holds .standard test) := by
  refine h.jump hi ?_
  rw [State.holds, ← h.shows_now.read hleft, ← h.shows_now.read hright]
  rfl

/-- A test used as an operation gives its outcome as an integer. The operators that may stand in a
test are comparisons, and these are both operations and conditions of the machine. -/
theorem operate_eq_holds {test : Test} (supported : Mnemonics.standard.SupportsTest test.op)
    (s : State) :
    s.operate (operationWord .standard test.op) test.left test.right =
      (s.holds .standard test).map Value.ofBool := by
  obtain ⟨-, comparison, known⟩ := supported
  obtain ⟨word, hword⟩ := Option.isSome_iff_exists.mp known
  obtain ⟨hne, c, hc⟩ := condition_of_comparison comparison hword
  rw [State.holds, operationWord, hword, Option.getD_some]
  exact computeIn_eq_map hc hne s.store test.left test.right

/-- The test of a loop: its outcome is kept in the flag, and the next instruction leaves the loop
if the flag says so. -/
theorem At.testLoop {test : Test} (h : At code r a s m)
    (supported : Mnemonics.standard.SupportsTest test.op) (hleft : test.left ≠ loopFlag)
    (hright : test.right ≠ loopFlag)
    (hi : code[a]? =
      some (.plain .op [operationWord .standard test.op, loopFlag, test.left, test.right]))
    (hnext : code[a + 1]? = some (.jumpTo (b : Nat) ["equal", loopFlag, "false"])) :
    Decides code r (a + 2) b s m (s.holds .standard test) := by
  have found := h.ready.environment_prepared
    (.plain .op [operationWord .standard test.op, loopFlag, test.left, test.right])
  have done := h.perform_operation (operationWord .standard test.op) loopFlag hleft hright found
  rw [operate_eq_holds supported s] at done
  cases hholds : s.holds .standard test with
  | error fault =>
    rw [hholds] at done
    obtain ⟨reached, hrun, shows⟩ := h.refuse hi done
    exact ⟨3, reached, hrun, shows⟩
  | ok holds =>
    rw [hholds] at done
    obtain ⟨mid, hmid, ready, henvironment⟩ :=
      h.ready.proceed (b := a + 1) hi done (by rw [found]; rfl)
    rw [found] at henvironment
    have between : At code r (a + 1) s mid := by
      refine ⟨ready, ?_⟩
      rw [henvironment]
      exact h.shows_now.write_loopFlag _
    -- The jump is taken if the flag is false, so the two ways out of it are swapped.
    have decided : Decides code r b (a + 1 + 1) s mid (.ok (!holds)) := by
      refine between.jump hnext ?_
      rw [henvironment]
      exact compareIn_loopFlag m.environment.store holds
    obtain ⟨n, reached, hpos, hrun, there⟩ := decided
    refine ⟨3 + n, reached, by omega, by rw [Machine.runFor_trans hmid, hrun], ?_⟩
    cases holds <;> exact there

/-! ### Statements -/

/-- Printing into an empty buffer leaves the text of the value there. -/
theorem print_of_empty {e : Environment} (empty : e.buffer = "") (v : Value) :
    e.print v = (v.format.mapError .numeral).map fun text => { e with buffer := text } := by
  unfold Environment.print
  rw [empty]
  cases v.format with
  | error fault => rfl
  | ok text =>
    show Except.ok { e with buffer := "" ++ text } = Except.ok { e with buffer := text }
    rw [String.empty_append]

/-- What a print does to the machine that executes it: the text of the value waits, or the machine
fails as the script does. -/
theorem At.perform_print {value : String} (h : At code r a s m) (hne : value ≠ loopFlag)
    {p : Machine} (hp : p.environment = { m.environment with readings := r }) :
    p.execute (.plain .print [value]) =
      (s.text value).map fun text =>
        { p with environment := { p.environment with buffer := text } } := by
  have empty : p.environment.buffer = "" := by
    rw [hp]
    exact h.shows.buffer
  unfold State.text
  rw [← h.shows_now.read hne, ← hp]
  show p.perform (.print value) = _
  rw [Machine.perform]
  cases p.environment.read value with
  | error fault => rfl
  | ok v =>
    show (p.environment.print v >>= _) = _
    rw [print_of_empty empty]
    show _ = (v.format.mapError Fault.numeral).map _
    cases v.format.mapError Fault.numeral with
    | error fault => rfl
    | ok text => rfl

/-- A message: its text waits for one instruction and is delivered by the next. -/
theorem At.follows_print {ticks : Nat} {value device : String} (h : At code r a s m)
    (hi : code[a]? = some (.plain .print [value]))
    (hnext : code[a + 1]? = some (.plain .printflush [device])) (hne : value ≠ loopFlag) :
    Follows code r (a + 2) ticks m (Ending.ofStep s (s.deliver value device)) := by
  have found := h.ready.environment_prepared (.plain .print [value])
  have done := h.perform_print hne found
  unfold State.deliver
  cases htext : s.text value with
  | error fault =>
    rw [htext] at done
    obtain ⟨reached, hrun, shows⟩ := h.refuse hi done
    exact ⟨3, reached, hrun, shows⟩
  | ok text =>
    rw [htext] at done
    -- In between a text waits in the buffer, so no state is shown there: two instructions, one
    -- step.
    obtain ⟨mid, hmid, ready, hmidEnvironment⟩ :=
      h.ready.proceed (b := a + 1) hi done (by rw [found])
    have flushed : ∀ p : Machine, p.execute (.plain .printflush [device]) =
        .ok { p with environment := p.environment.flush device } := fun _ => rfl
    have foundNext := ready.environment_prepared (.plain .printflush [device])
    obtain ⟨reached, hrun, readyNext, henvironment⟩ :=
      ready.proceed (b := a + 2) hnext (flushed _) (by rw [foundNext]; rfl)
    refine ⟨3 + 3, reached, by rw [Machine.runFor_trans hmid, hrun], readyNext, ?_⟩
    rw [henvironment, foundNext, hmidEnvironment, found]
    refine ⟨h.shows.store, ?_, rfl⟩
    show m.environment.outputs.deliver device text = s.outputs.deliver device text
    rw [h.shows.outputs]

/-! ### Placed code -/

/-- The instructions `segment` stand in the code from the address `a` on. -/
def Placed (code : List Instr) (a : Nat) (segment : List Instr) : Prop :=
  ∃ before after, code = before ++ (segment ++ after) ∧ before.length = a

/-- Code in two parts: the second stands behind the first. -/
theorem Placed.append {first second : List Instr} (h : Placed code a (first ++ second)) :
    Placed code a first ∧ Placed code (a + first.length) second := by
  obtain ⟨before, after, rfl, rfl⟩ := h
  exact ⟨⟨before, second ++ after, by simp, rfl⟩, ⟨before ++ first, after, by simp, by simp⟩⟩

/-- The first instruction of placed code, and the code behind it. -/
theorem Placed.cons {segment : List Instr} (h : Placed code a (i :: segment)) :
    code[a]? = some i ∧ Placed code (a + 1) segment := by
  obtain ⟨before, after, rfl, rfl⟩ := h
  exact ⟨by simp, ⟨before ++ [i], after, by simp, by simp⟩⟩

/-- The operators of a chain. By induction on the chain, where the left operand becomes the
destination after the first operator. -/
theorem At.follows_chain {ticks : Nat} {dest left : String} {chain : List (Token × String)}
    (h : At code r a s m) (placed : Placed code a (combineAll .standard dest left chain))
    (hdest : dest ≠ loopFlag) (hleft : left ≠ loopFlag)
    (hchain : ∀ pair ∈ chain, pair.2 ≠ loopFlag) :
    Follows code r (a + chain.length) ticks m (combineChain .standard r dest left chain s) := by
  induction chain generalizing a left s m with
  | nil => exact ⟨0, m, rfl, h⟩
  | cons pair chain ih =>
    obtain ⟨op, right⟩ := pair
    obtain ⟨hi, placed⟩ := placed.cons
    obtain ⟨hright, hchain⟩ := List.forall_mem_cons.mp hchain
    rw [List.length_cons, Nat.add_comm chain.length, ← Nat.add_assoc]
    exact (h.follows_combine hi hleft hright).andThen fun there => ih there placed hdest hchain

/-- An assignment, which is a copy without an operator and a chain otherwise. -/
theorem At.follows_assignment {ticks : Nat} {dest first : String} {chain : List (Token × String)}
    (h : At code r a s m)
    (placed : Placed code a ((Statement.assign dest first chain).code .standard a none))
    (hne : ∀ arg ∈ (Statement.assign dest first chain).operands, arg ≠ loopFlag) :
    Follows code r (a + (Statement.assign dest first chain).size) ticks m
      (runAssignment .standard r dest first chain s) := by
  simp only [Statement.operands, List.forall_mem_cons, List.forall_mem_map] at hne
  obtain ⟨hdest, hfirst, hchain⟩ := hne
  cases chain with
  | nil => exact h.follows_set placed.cons.1 hfirst
  | cons pair chain =>
    have size : (Statement.assign dest first (pair :: chain)).size = (pair :: chain).length := by
      simp [Statement.size]
    rw [size]
    exact h.follows_chain placed hdest hfirst hchain

/-! ### Blocks -/

/-- Rounds of a loop whose test is at `a`. The test leads to `body` or to `exit`, and a round
leads back to the test. A test takes at least one tick, so rounds that are used up have taken as
many ticks. -/
theorem follows_repeatWhile {body exit ticks : Nat} {test : State → Except Fault Bool}
    {round : State → Ending}
    (decides : ∀ {s m}, At code r a s m → Decides code r body exit s m (test s))
    (rounds : ∀ {s m}, At code r body s m → Follows code r a ticks m (round s)) :
    ∀ {n : Nat} {s : State} {m : Machine}, n ≤ ticks → At code r a s m →
      Follows code r exit n m (repeatWhile test round n s) := by
  intro n
  -- The rounds that are left go down, while each round may still use all of `ticks`.
  induction n with
  | zero =>
    intro s m _ h
    exact ⟨0, m, Nat.le_refl 0, rfl, h.ready.running⟩
  | succ n ih =>
    intro s m hn h
    have decided := decides h
    rw [repeatWhile]
    cases htest : test s with
    | error fault =>
      rw [htest] at decided
      exact decided
    | ok holds =>
      rw [htest] at decided
      obtain ⟨k, reached, hpos, hrun, there⟩ := decided
      cases holds with
      | false => exact ⟨k, reached, hrun, there⟩
      | true =>
        have round := ((rounds there).mono (by omega : n ≤ ticks)).andThen
          fun back => ih (by omega) back
        exact (round.after hrun).mono (by omega)

/-- The header of a conditional with its closer at `c`: the test leads to the body or behind the
block. The closer has no code, so `c` is the address behind the block. -/
theorem At.decides_conditional {c : Nat} {line : Int} {test : Test} (h : At code r a s m)
    (header : Placed code a ((Statement.openConditional line test).code .standard a (some c)))
    (hne : ∀ arg ∈ (Statement.openConditional line test).operands, arg ≠ loopFlag) :
    Decides code r (a + 2) c s m (s.holds .standard test) := by
  obtain ⟨hbranch, header⟩ := header.cons
  have taken := h.branch hbranch (hne test.left (by simp [Statement.operands]))
    (hne test.right (by simp [Statement.operands]))
  exact taken.goto header.cons.1

/-- A loop with its closer at `c`, around a body that the machine follows. On entry the step is
jumped over; after each round it comes before the test. -/
theorem At.follows_loop {rounds c : Nat} {line : Int} {counter start : String} {test : Test}
    {step : Option Step} {body : State → Ending} (h : At code r a s m)
    (header : Placed code a
      ((Statement.openLoop line counter start test step).code .standard a (some c)))
    (hback : code[c]? = some (.jumpTo (a + 2 : Nat) [always]))
    (supported : Mnemonics.standard.SupportsTest test.op)
    (hne : ∀ arg ∈ (Statement.openLoop line counter start test step).operands, arg ≠ loopFlag)
    (hbody : ∀ {s m}, At code r (a + 5) s m → Follows code r c rounds m (body s)) :
    Follows code r (c + 1) rounds m
      ((Ending.ofStep s (s.copy counter start)).andThen
        (repeatWhile (State.holds .standard test)
          (fun s => (body s).andThen fun s =>
            Ending.ofStep s (s.advance .standard r counter step)) rounds)) := by
  simp only [Statement.operands, List.forall_mem_cons] at hne
  obtain ⟨hcounter, hstart, hleft, hright, hsteps⟩ := hne
  have hstepTexts : ∀ st ∈ step, st.left ≠ loopFlag ∧ st.right ≠ loopFlag := by
    rintro st rfl
    exact ⟨hsteps _ (by simp), hsteps _ (by simp)⟩
  obtain ⟨hset, header⟩ := header.cons
  obtain ⟨hentry, header⟩ := header.cons
  obtain ⟨hadvance, header⟩ := header.cons
  obtain ⟨htest, header⟩ := header.cons
  have hleave := header.cons.1
  have decides : ∀ {s m}, At code r (a + 3) s m →
      Decides code r (a + 5) (c + 1) s m (s.holds .standard test) :=
    fun there => there.testLoop supported hleft hright htest hleave
  -- From the closer back to the step, and on to the test.
  have round : ∀ {s m}, At code r (a + 5) s m → Follows code r (a + 3) rounds m
      ((body s).andThen fun s => Ending.ofStep s (s.advance .standard r counter step)) := by
    intro s m there
    refine (hbody there).andThen fun atCloser => ?_
    obtain ⟨reached, hrun, atStep⟩ := atCloser.goto hback
    exact ((atStep.follows_advance hadvance hcounter hstepTexts).after hrun).mono
      (Nat.le_add_left _ _)
  -- On entry the second instruction jumps over the step.
  refine (h.follows_set hset hstart).andThen fun atEntry => ?_
  obtain ⟨reached, hrun, atTest⟩ := atEntry.goto (b := a + 3) hentry
  exact ((follows_repeatWhile decides round (Nat.le_refl rounds) atTest).after hrun).mono
    (Nat.le_add_left _ _)

/-! ### Scripts -/

/-- The statements of a script use operators of the standard table only, and none of them names
the flag of the loops. Both are known of every source that compiles. -/
def Fit (ss : List Statement) : Prop :=
  ∀ st ∈ ss, st.Supported .standard ∧ ∀ arg ∈ st.operands, arg ≠ loopFlag

/-- The machine follows a script that stands in the code. By induction on the script, for every
address and every state, with `rounds` as the ticks that it runs at least if a loop uses up its
rounds. -/
theorem follows_evaluate (rounds : Nat) {script : Script} :
    ∀ {a : Nat} {s : State} {m : Machine}, Placed code a (script.code .standard a) →
      Fit script.statements → At code r a s m →
      Follows code r (a + script.size) rounds m (script.evaluate .standard r rounds s) := by
  induction script with
  | done => exact fun _ _ h => ⟨0, _, rfl, h⟩
  | ignored line words rest ih =>
    intro a s m placed fit h
    exact ih placed (List.forall_mem_cons.mp fit).2 h
  | assign dest first chain rest ih =>
    intro a s m placed fit h
    obtain ⟨⟨-, hne⟩, fit⟩ := List.forall_mem_cons.mp fit
    obtain ⟨own, placed⟩ := placed.append
    rw [Statement.length_code] at placed
    rw [size, ← Nat.add_assoc]
    exact (h.follows_assignment own hne).andThen fun there => ih placed fit there
  | print value device rest ih =>
    intro a s m placed fit h
    obtain ⟨⟨-, hne⟩, fit⟩ := List.forall_mem_cons.mp fit
    obtain ⟨own, placed⟩ := placed.append
    obtain ⟨hprint, own⟩ := own.cons
    rw [size, ← Nat.add_assoc]
    exact (h.follows_print hprint own.cons.1 (hne value (by simp [Statement.operands]))).andThen
      fun there => ih placed fit there
  | conditional line test body closing rest ihBody ih =>
    intro a s m placed fit h
    obtain ⟨⟨-, hne⟩, fit⟩ := List.forall_mem_cons.mp fit
    obtain ⟨fitBody, fit⟩ := List.forall_mem_append.mp fit
    obtain ⟨-, fit⟩ := List.forall_mem_cons.mp fit
    obtain ⟨header, placed⟩ := placed.append
    obtain ⟨placedBody, placed⟩ := placed.append
    simp only [Statement.length_code, Statement.size, length_code] at placedBody placed
    have decided := h.decides_conditional header hne
    rw [evaluate, size, ← Nat.add_assoc, ← Nat.add_assoc]
    cases htest : s.holds .standard test with
    | error fault =>
      rw [htest] at decided
      exact decided
    | ok holds =>
      rw [htest] at decided
      obtain ⟨n, reached, -, hrun, there⟩ := decided
      cases holds with
      | false => exact ((ih placed fit there).after hrun).mono (Nat.le_add_left _ _)
      | true =>
        have inside := (ihBody placedBody fitBody there).andThen fun after => ih placed fit after
        exact (inside.after hrun).mono (Nat.le_add_left _ _)
  | loop line counter start test step body closing rest ihBody ih =>
    intro a s m placed fit h
    obtain ⟨⟨⟨-, supported⟩, hne⟩, fit⟩ := List.forall_mem_cons.mp fit
    obtain ⟨fitBody, fit⟩ := List.forall_mem_append.mp fit
    obtain ⟨-, fit⟩ := List.forall_mem_cons.mp fit
    obtain ⟨header, placed⟩ := placed.append
    obtain ⟨placedBody, placed⟩ := placed.append
    obtain ⟨placedBack, placed⟩ := placed.append
    simp only [Statement.length_code, Statement.size, length_code] at placedBody placedBack placed
    rw [evaluate, size, ← Nat.add_assoc, ← Nat.add_assoc, ← Nat.add_assoc]
    exact (h.follows_loop header placedBack.cons.1 supported hne
      (ihBody placedBody fitBody)).andThen fun there => ih placed fit there

end Script

end Tickscript
