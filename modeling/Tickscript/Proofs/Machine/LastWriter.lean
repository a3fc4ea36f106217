import Tickscript.Machine.Trace
import Tickscript.Proofs.Machine.Atomic

/-!
# `Tickscript.Proofs.Machine.LastWriter`: what a sensor shows

The events of a schedule are picked out tick by tick, so their order matters only within a tick,
and there only among the events of one sensor. `valuesAt` is what is left: the values of a sensor
at a tick, in their order. `Readings.get?_advance` says that the events of a tick change a sensor
to the last of these values.

`Reports` says without any machine what a sensor shows at a tick: the value of the event that is
greatest by its tick and then by its place in the schedule. By induction on the ticks this is what
has been read (`reports_readingsBefore`). The clock skips no tick, and it stands still after a
fault, so the sensors of a machine that is in step are those of its clock.

For the comparison of two runs, `Machine.withSensors` changes the schedule and the sensors of a
machine. No phase looks at them but for the value of a sensor (`phaseStep_withSensors`), so
machines that are `Alike` stay so.
-/

set_option autoImplicit false

namespace Tickscript

variable {schedule other : List SensorEvent} {object property : String}

/-! ### The values of a sensor at a tick -/

/-- The event sets a sensor at a tick. A sensor is known by its object and its property. -/
def SensorEvent.Sets (e : SensorEvent) (tick : Int) (object property : String) : Prop :=
  e.tick = tick ∧ e.object = object ∧ e.property = property

/-- Ticks and names can be compared. -/
instance (e : SensorEvent) (tick : Int) (object property : String) :
    Decidable (e.Sets tick object property) :=
  inferInstanceAs (Decidable (_ ∧ _ ∧ _))

/-- The values that a sensor gets at a tick, in the order of the schedule. This is all that a run
can see of a schedule. -/
def valuesAt (schedule : List SensorEvent) (tick : Int) (object property : String) : List Value :=
  (schedule.filter (·.Sets tick object property)).map (·.value)

/-- The first event of a schedule counts if it is about the sensor and the tick. -/
theorem valuesAt_cons (e : SensorEvent) (schedule : List SensorEvent) (tick : Int)
    (object property : String) :
    valuesAt (e :: schedule) tick object property =
      if e.Sets tick object property then e.value :: valuesAt schedule tick object property
      else valuesAt schedule tick object property := by
  by_cases h : e.Sets tick object property <;> simp [valuesAt, h]

/-- A sensor gets no value at a tick if the schedule has no event for it. -/
theorem valuesAt_eq_nil_iff {tick : Int} :
    valuesAt schedule tick object property = [] ↔
      ∀ e ∈ schedule, ¬e.Sets tick object property := by
  simp [valuesAt, List.filter_eq_nil_iff]

/-- The last value of a sensor at a tick is that of an event after which the schedule has no other
for it. The induction is on the schedule, from the front. -/
theorem exists_event_of_getLast? {tick : Int} {value : Value}
    (h : (valuesAt schedule tick object property).getLast? = some value) :
    ∃ (k : Nat) (e : SensorEvent), schedule[k]? = some e ∧ e.Sets tick object property ∧
      e.value = value ∧ ∀ (j : Nat) (later : SensorEvent), schedule[j]? = some later →
        later.Sets tick object property → j ≤ k := by
  induction schedule with
  | nil => cases h
  | cons first rest ih =>
    rw [valuesAt_cons] at h
    cases hlast : (valuesAt rest tick object property).getLast? with
    | some last =>
      -- An event further back decides, whether or not the first one belongs to the sensor.
      have hvalue : last = value := by
        split at h
        · rw [List.getLast?_cons, hlast] at h
          exact Option.some.inj h
        · exact Option.some.inj (hlast.symm.trans h)
      obtain ⟨k, e, hk, sets, he, greatest⟩ := ih (hlast.trans (congrArg some hvalue))
      refine ⟨k + 1, e, hk, sets, he, ?_⟩
      intro j later hj hsets
      cases j with
      | zero => omega
      | succ j => exact Nat.succ_le_succ (greatest j later hj hsets)
    -- Nothing further back belongs to the sensor, so the first event decides if it does.
    | none =>
      have nothing : valuesAt rest tick object property = [] := List.getLast?_eq_none_iff.mp hlast
      rw [nothing] at h
      split at h
      · rename_i sets
        refine ⟨0, first, rfl, sets, Option.some.inj h, ?_⟩
        intro j later hj hsets
        cases j with
        | zero => omega
        | succ j =>
          exact absurd hsets (valuesAt_eq_nil_iff.mp nothing later (List.mem_of_getElem? hj))
      · cases h

namespace Readings

/-- The first event of a schedule happens before the others, if it happens at this tick. -/
theorem advance_cons (e : SensorEvent) (schedule : List SensorEvent) (tick : Int) (r : Readings) :
    r.advance (e :: schedule) tick =
      if e.tick = tick then (r.record e).advance schedule tick else r.advance schedule tick := by
  by_cases h : e.tick = tick <;> simp [advance, h]

/-- After the events of a tick a sensor has the last of its values at that tick, or what it had
before. Events of other sensors and of other ticks make no difference. -/
theorem get?_advance (schedule : List SensorEvent) (tick : Int) (r : Readings)
    (object property : String) :
    (r.advance schedule tick).get? (object, property) =
      (valuesAt schedule tick object property).getLast?.or (r.get? (object, property)) := by
  induction schedule generalizing r with
  | nil => rfl
  | cons e schedule ih =>
    rw [advance_cons, valuesAt_cons]
    by_cases htick : e.tick = tick
    · rw [if_pos htick, ih, record, Table.get?_set]
      by_cases hsensor : e.object = object ∧ e.property = property
      · have hkey : (object, property) = (e.object, e.property) := by rw [hsensor.1, hsensor.2]
        rw [if_pos hkey, if_pos ⟨htick, hsensor⟩, List.getLast?_cons]
        cases (valuesAt schedule tick object property).getLast? <;> rfl
      · have hkey : (object, property) ≠ (e.object, e.property) :=
          fun h => hsensor ⟨(Prod.mk.inj h).1.symm, (Prod.mk.inj h).2.symm⟩
        rw [if_neg hkey, if_neg fun sets => hsensor sets.2]
    · rw [if_neg htick, if_neg fun sets => htick sets.1, ih]

end Readings

/-! ### The last writer -/

/-- The event at position `k` of a schedule belongs to a sensor and has happened by the tick `t`.
Events before tick zero never happen. The position is kept because it decides among events of one
tick. -/
structure Happened (schedule : List SensorEvent) (object property : String) (t : Int) (k : Nat)
    (e : SensorEvent) : Prop where
  position : schedule[k]? = some e
  object_eq : e.object = object
  property_eq : e.property = property
  nonneg : 0 ≤ e.tick
  le : e.tick ≤ t

/-- What a sensor shows at the tick `t`: the value of the greatest of its events by tick and
position, and nothing if none has happened. It says nothing about how schedules are gone
through. -/
inductive Reports (schedule : List SensorEvent) (object property : String) (t : Int) :
    Value → Prop where
  | nothing (never : ∀ (k : Nat) (e : SensorEvent), ¬Happened schedule object property t k e) :
      Reports schedule object property t .null
  | event (k : Nat) (e : SensorEvent) (happened : Happened schedule object property t k e)
      (greatest : ∀ (j : Nat) (earlier : SensorEvent),
        Happened schedule object property t j earlier →
          earlier.tick < e.tick ∨ (earlier.tick = e.tick ∧ j ≤ k)) :
      Reports schedule object property t e.value

variable {t : Int} {value : Value}

/-- A sensor shows one value at a time: no two events have the same place in the schedule. Of two
greatest events each is at most the other. -/
theorem Reports.unique {shown : Value} (h : Reports schedule object property t value)
    (h' : Reports schedule object property t shown) : shown = value := by
  cases h with
  | nothing never =>
    cases h' with
    | nothing _ => rfl
    | event k e happened _ => exact absurd happened (never k e)
  | event k e happened greatest =>
    cases h' with
    | nothing never => exact absurd happened (never k e)
    | event j e' happened' greatest' =>
      have hjk := greatest j e' happened'
      have hkj := greatest' k e happened
      have same : j = k := by omega
      have position := happened'.position
      rw [same, happened.position] at position
      rw [Option.some.inj position]

/-- What has happened by the next tick has happened before or happens at that tick. The next tick
is looked at this way in the two lemmas below. -/
theorem Happened.of_succ {k : Nat} {e : SensorEvent}
    (h : Happened schedule object property (t + 1) k e) :
    Happened schedule object property t k e ∨ e.Sets (t + 1) object property := by
  by_cases hle : e.tick ≤ t
  · exact Or.inl ⟨h.position, h.object_eq, h.property_eq, h.nonneg, hle⟩
  · have le := h.le
    exact Or.inr ⟨by omega, h.object_eq, h.property_eq⟩

/-- A tick without an event for a sensor keeps what it shows, since nothing new has happened to
it. -/
theorem Reports.wait (h : Reports schedule object property t value)
    (quiet : ∀ e ∈ schedule, ¬e.Sets (t + 1) object property) :
    Reports schedule object property (t + 1) value := by
  have before : ∀ {k : Nat} {e : SensorEvent},
      Happened schedule object property (t + 1) k e → Happened schedule object property t k e :=
    fun h => h.of_succ.resolve_right (quiet _ (List.mem_of_getElem? h.position))
  cases h with
  | nothing never => exact .nothing fun k e h => never k e (before h)
  | event k e happened greatest =>
    have le := happened.le
    refine .event k e ⟨happened.position, happened.object_eq, happened.property_eq,
      happened.nonneg, by omega⟩ ?_
    intro j earlier h
    exact greatest j earlier (before h)

/-- The last event of a sensor at a tick decides what it shows from then on. All events of earlier
ticks are less than it. -/
theorem Reports.arrive {k : Nat} {e : SensorEvent} (started : 0 ≤ t + 1)
    (position : schedule[k]? = some e) (sets : e.Sets (t + 1) object property)
    (greatest : ∀ (j : Nat) (later : SensorEvent), schedule[j]? = some later →
      later.Sets (t + 1) object property → j ≤ k) :
    Reports schedule object property (t + 1) e.value := by
  obtain ⟨htick, hobject, hproperty⟩ := sets
  refine .event k e ⟨position, hobject, hproperty, by omega, by omega⟩ ?_
  intro j earlier h
  rcases h.of_succ with before | now
  · have le := before.le
    exact Or.inl (by omega)
  · exact Or.inr ⟨now.1.trans htick.symm, greatest j earlier h.position now⟩

/-- After the events of the first `n` ticks every sensor shows its last writer. The induction is
on the ticks, and in each of them the sensor waits or an event arrives. -/
theorem reports_readingsBefore (schedule : List SensorEvent)
    (object property : String) (n : Nat) :
    Reports schedule object property ((n : Int) - 1)
      ((readingsBefore schedule n).read object property) := by
  induction n with
  | zero =>
    refine .nothing fun k e h => ?_
    have nonneg := h.nonneg
    have le := h.le
    omega
  | succ n ih =>
    -- The tick that is added has the number `n`, one after the last of the first `n` ticks.
    have hbound : ((n + 1 : Nat) : Int) - 1 = ((n : Int) - 1) + 1 := by omega
    have htick : ((n : Int) - 1) + 1 = n := by omega
    rw [hbound, readingsBefore_succ, Readings.read, Readings.get?_advance]
    cases hlast : (valuesAt schedule n object property).getLast? with
    | none =>
      have quiet := valuesAt_eq_nil_iff.mp (List.getLast?_eq_none_iff.mp hlast)
      exact ih.wait (by rwa [htick])
    | some value =>
      obtain ⟨k, e, position, sets, rfl, greatest⟩ := exists_event_of_getLast? hlast
      exact .arrive (by omega) position (by rwa [htick]) (by rwa [htick])

/-! ### Schedules that cannot be told apart -/

/-- Two schedules give every sensor the same values at every tick, in the same order. They may
have their events in any order otherwise. -/
def Interchangeable (schedule other : List SensorEvent) : Prop :=
  ∀ (tick : Int) (object property : String),
    valuesAt schedule tick object property = valuesAt other tick object property

/-- It is enough to look where one of the schedules has an event, which are finitely many
places. -/
theorem interchangeable_iff :
    Interchangeable schedule other ↔ ∀ e ∈ schedule ++ other,
      valuesAt schedule e.tick e.object e.property =
        valuesAt other e.tick e.object e.property := by
  refine ⟨fun h e _ => h e.tick e.object e.property, fun h tick object property => ?_⟩
  by_cases used : ∃ e ∈ schedule ++ other, e.Sets tick object property
  · obtain ⟨e, he, rfl, rfl, rfl⟩ := used
    exact h e he
  · have unused : ∀ e ∈ schedule ++ other, ¬e.Sets tick object property :=
      fun e he sets => used ⟨e, he, sets⟩
    rw [valuesAt_eq_nil_iff.mpr fun e he => unused e (List.mem_append_left _ he),
      valuesAt_eq_nil_iff.mpr fun e he => unused e (List.mem_append_right _ he)]

/-- Whether two schedules are interchangeable can be found out. -/
instance (schedule other : List SensorEvent) : Decidable (Interchangeable schedule other) :=
  decidable_of_iff _ interchangeable_iff.symm

namespace Machine

variable {m next : Machine} {r : Readings}

/-- A machine with another schedule, and with sensors that show other readings. All else is the
same, the clock and the instruction in progress included. -/
def withSensors (m : Machine) (schedule : List SensorEvent) (r : Readings) : Machine :=
  { m with schedule, environment := { m.environment with readings := r } }

/-- An action looks at no more than the values of the sensors. The schedule is not looked at at
all, and of the readings only the values are, not the order of the sensors. -/
theorem perform_withSensors (schedule : List SensorEvent)
    (same : ∀ object property,
      r.read object property = m.environment.readings.read object property)
    (action : Action) :
    (m.withSensors schedule r).perform action =
      (m.perform action).map (·.withSensors schedule r) := by
  have optional : ∀ arg, (m.withSensors schedule r).readOptional arg = m.readOptional arg := by
    intro arg
    cases arg <;> rfl
  cases action with
  | set dest source => exact bind_eq_map_bind fun value => rfl
  | compute operation dest left right =>
    exact bind_eq_map_bind fun a => bind_eq_map_bind fun b => bind_eq_map_bind fun value => rfl
  | sense dest object property =>
    show Except.ok { m.withSensors schedule r with
      environment :=
        (m.withSensors schedule r).environment.write dest (r.read object property) } = _
    rw [same]
    rfl
  | jump condition left right target =>
    simp only [perform, optional]
    refine bind_eq_map_bind fun a => bind_eq_map_bind fun b => bind_eq_map_bind fun taken => ?_
    cases taken <;> rfl
  | print source =>
    refine bind_eq_map_bind fun value => ?_
    show Environment.print _ value >>= _ = (Environment.print _ value >>= _).map _
    unfold Environment.print
    cases value.format <;> rfl
  | flush device => rfl
  | halt => rfl

/-- A phase looks at no more than the values of the sensors. Fetching and moving on do not even
look at these. -/
theorem phaseStep_withSensors (schedule : List SensorEvent)
    (same : ∀ object property,
      r.read object property = m.environment.readings.read object property) :
    (m.withSensors schedule r).phaseStep = m.phaseStep.map (·.withSensors schedule r) := by
  have hphase : (m.withSensors schedule r).phase = m.phase := rfl
  simp only [phaseStep, hphase]
  cases m.phase with
  | fetch =>
    show (m.withSensors schedule r).fetch = m.fetch.map _
    have hcounter : (m.withSensors schedule r).counter = m.counter := rfl
    have hprogram : (m.withSensors schedule r).program = m.program := rfl
    simp only [fetch, hcounter, hprogram]
    cases m.counter with
    | none => rfl
    | some address =>
      by_cases hneg : address < 0
      · simp only [hneg, if_true]
        rfl
      · simp only [hneg, if_false]
        cases m.program[address.toNat]? <;> rfl
  | latch => rfl
  -- Only the action of the loaded instruction can look at a sensor.
  | execute =>
    show (m.withSensors schedule r).finishInstr = m.finishInstr.map _
    have hloaded : (m.withSensors schedule r).loaded = m.loaded := rfl
    simp only [finishInstr, hloaded]
    cases m.loaded with
    | none => rfl
    | some i =>
      simp only [execute]
      cases i.action with
      | error fault => rfl
      | ok action =>
        show ((m.withSensors schedule r).perform action).map _ = ((m.perform action).map _).map _
        rw [perform_withSensors schedule same]
        cases m.perform action <;> rfl

/-- Two machines that differ in nothing but their schedules and the order in which their sensors
became known. The schedules give the same values to every sensor, and every sensor shows the same
in both. -/
inductive Alike : Machine → Machine → Prop where
  | intro (m : Machine) (schedule : List SensorEvent) (r : Readings)
      (events : Interchangeable m.schedule schedule)
      (shown : ∀ sensor, r.get? sensor = m.environment.readings.get? sensor) :
      Alike m (m.withSensors schedule r)

/-- Machines that are alike have both halted, or none has. -/
theorem Alike.halted {twin : Machine} (alike : Alike m twin) : twin.halted = m.halted := by
  cases alike
  rfl

/-- A trace does not show the sensors, so the lines of machines that are alike are the same. -/
theorem Alike.traceLine {twin : Machine} (alike : Alike m twin) :
    twin.traceLine = m.traceLine := by
  cases alike
  rfl

/-- A tick touches the sensors only with its events, and the schedule not at all. So what one tick
needs to know is known again for the next one. -/
theorem Ticked.sensors {result : Machine × Option Fault} (ticked : Ticked m result) :
    result.1.environment.readings = m.sense.environment.readings ∧
      result.1.schedule = m.schedule := by
  cases ticked with
  | refused fault => exact ⟨rfl, rfl⟩
  | left hphase => exact ⟨rfl, rfl⟩
  | fetched a i hphase hcounter hi => exact ⟨rfl, rfl⟩
  | latched hphase => exact ⟨rfl, rfl⟩
  | executed i next hphase hi hexecute =>
    obtain ⟨hreadings, -, -, -, hschedule⟩ := kept_of_execute hexecute
    exact ⟨hreadings, hschedule⟩

/-- A tick that reads the same values ends in the same way: it succeeds or fails for both, with
the same fault. -/
theorem tick_withSensors (running : m.halted = false) (schedule : List SensorEvent)
    (same : ∀ object property, (r.advance schedule m.ticks).read object property =
      m.sense.environment.readings.read object property) :
    (m.withSensors schedule r).tick =
      (m.tick.1.withSensors schedule (r.advance schedule m.ticks), m.tick.2) := by
  have hrunning : (m.withSensors schedule r).halted = false := running
  have step : (m.withSensors schedule r).sense.phaseStep =
      m.sense.phaseStep.map (·.withSensors schedule (r.advance schedule m.ticks)) :=
    phaseStep_withSensors (m := m.sense) schedule same
  cases hstep : m.sense.phaseStep with
  | ok next =>
    rw [hstep] at step
    rw [tick_of_ok running hstep, tick_of_ok hrunning step]
    rfl
  | error fault =>
    rw [hstep] at step
    rw [tick_refused running hstep, tick_refused hrunning step]
    rfl

/-- Machines that are alike take the same tick and are alike afterwards. It is the step of the
comparisons below. -/
theorem Alike.tick {twin : Machine} (alike : Alike m twin) (cycle : InCycle m) :
    ∃ reached, twin.tick = (reached, m.tick.2) ∧ Alike m.tick.1 reached := by
  obtain ⟨schedule, r, events, shown⟩ := alike
  cases running : m.halted with
  | true =>
    have hrunning : (m.withSensors schedule r).halted = true := running
    rw [tick_of_halted running, tick_of_halted hrunning]
    exact ⟨_, rfl, .intro m schedule r events shown⟩
  | false =>
    -- The events of the tick differ at most in their order, so the sensors show the same again.
    have again : ∀ sensor, (r.advance schedule m.ticks).get? sensor =
        m.sense.environment.readings.get? sensor := by
      rintro ⟨object, property⟩
      show _ = (m.environment.readings.advance m.schedule m.ticks).get? _
      rw [Readings.get?_advance, Readings.get?_advance, events, shown]
    have htick := tick_withSensors running schedule fun object property =>
      congrArg (·.getD .null) (again (object, property))
    obtain ⟨hreadings, hschedule⟩ := (cycle.ticked running).sensors
    refine ⟨_, htick, .intro m.tick.1 schedule _ ?_ ?_⟩
    · rw [hschedule]
      exact events
    · rw [hreadings]
      exact again

/-- Machines that are alike come to the same end: they halt, fail or stop at the limit
together. -/
theorem Alike.runFor {twin : Machine} (alike : Alike m twin) (cycle : InCycle m) (count : Nat) :
    Alike (m.runFor count).1 (twin.runFor count).1 ∧
      (twin.runFor count).2 = (m.runFor count).2 := by
  induction count generalizing m twin with
  | zero => exact ⟨alike, rfl⟩
  | succ count ih =>
    obtain ⟨reached, htwin, next⟩ := alike.tick cycle
    have kept := cycle.tick
    simp only [Machine.runFor, alike.halted, htwin]
    cases m.halted with
    | true => exact ⟨alike, rfl⟩
    | false =>
      simp only [Bool.false_eq_true, if_false]
      -- Both go on, or both end with the fault of this tick.
      cases htick : m.tick with
      | mk after outcome =>
        rw [htick] at next kept
        cases outcome with
        | none => exact ih next kept
        | some fault => exact ⟨next, rfl⟩

/-- Machines that are alike come to the same end with the same trace. A line that cannot be shown
ends both. -/
theorem Alike.traceFor {twin : Machine} (alike : Alike m twin) (cycle : InCycle m) (count : Nat)
    (trace : String) :
    (twin.traceFor count trace).trace = (m.traceFor count trace).trace ∧
      (twin.traceFor count trace).fault = (m.traceFor count trace).fault := by
  induction count generalizing m twin trace with
  | zero => exact ⟨rfl, rfl⟩
  | succ count ih =>
    obtain ⟨reached, htwin, next⟩ := alike.tick cycle
    have kept := cycle.tick
    simp only [Machine.traceFor, alike.halted, alike.traceLine, htwin]
    cases m.halted with
    | true => exact ⟨rfl, rfl⟩
    | false =>
      simp only [Bool.false_eq_true, if_false]
      -- The line is made before the tick, so it may end the trace by itself.
      cases m.traceLine with
      | error fault => exact ⟨rfl, rfl⟩
      | ok line =>
        cases htick : m.tick with
        | mk after outcome =>
          rw [htick] at next kept
          cases outcome with
          | none => exact ih next kept (trace ++ line)
          | some fault => exact ⟨rfl, rfl⟩

/-- Over interchangeable schedules a machine starts alike: no sensor is known at first. -/
theorem alike_start (program : List Instr) (h : Interchangeable schedule other) :
    Alike (start program schedule) (start program other) :=
  .intro (start program schedule) other {} h fun _ => rfl

/-- A machine that is about to execute a sensor read stores what the sensor shows at its clock.
Being in step is what ties the readings of the machine to its clock. -/
theorem InStep.tick_sensor {program : List Instr} {i : Instr} {dest : String}
    (h : InStep program schedule m) (running : m.halted = false) (hphase : m.phase = .execute)
    (hloaded : m.loaded = some i) (hopcode : i.opcode = .sensor)
    (hargs : i.args = [dest, object, property]) :
    ∃ value, (∀ shown, Reports schedule object property m.ticks shown ↔ shown = value) ∧
      m.tick = ({ m.sense with environment := m.sense.environment.write dest value }.counted,
        none) := by
  refine ⟨m.sense.environment.readings.read object property, ?_, ?_⟩
  · have reports := reports_readingsBefore schedule object property (m.ticks + 1)
    have hclock : ((m.ticks + 1 : Nat) : Int) - 1 = m.ticks := by omega
    rw [hclock, ← h.readings] at reports
    intro shown
    exact ⟨reports.unique, fun hshown => hshown ▸ reports⟩
  · refine tick_execute running hphase hloaded ?_
    have haction : i.action = .ok (.sense dest object property) := by
      simp only [Instr.action, hopcode, hargs]
    rw [Machine.execute, haction]
    rfl

/-- **A sensor shows its last writer.** Over any program and any schedule, and after any number of
ticks, failed ones included, a machine that executes a sensor read at the tick `t` stores the
value of the sensor's greatest event by tick and position among the ticks from 0 to `t`, or
nothing if there is none.

So a run depends on no more of a schedule than the values of each sensor at each tick, in their
order. Schedules that agree there lead through the same machines, tick by tick and fault by fault,
to the same end and with the same trace. -/
theorem sensor_shows_last_writer (program : List Instr) (schedule : List SensorEvent) :
    (∀ (n : Nat) (i : Instr) (dest object property : String),
      let m := (start program schedule).after n
      m.halted = false → m.phase = .execute → m.loaded = some i → i.opcode = .sensor →
      i.args = [dest, object, property] →
      ∃ value, (∀ shown, Reports schedule object property m.ticks shown ↔ shown = value) ∧
        m.tick =
          ({ m.sense with environment := m.sense.environment.write dest value }.counted, none)) ∧
    ∀ other : List SensorEvent, Interchangeable schedule other →
      let m := start program schedule
      let twin := start program other
      (∀ n, Alike (m.after n) (twin.after n) ∧ (twin.after n).tick.2 = (m.after n).tick.2) ∧
      ∀ limit, Alike (m.run limit).1 (twin.run limit).1 ∧ (twin.run limit).2 = (m.run limit).2 ∧
        (twin.runTraced limit).trace = (m.runTraced limit).trace ∧
        (twin.runTraced limit).fault = (m.runTraced limit).fault := by
  refine ⟨?_, ?_⟩
  · intro n i dest object property m running hphase hloaded hopcode hargs
    rcases inStep_or_gone program schedule n with ⟨-, inStep⟩ | ⟨-, gone⟩
    · exact inStep.tick_sensor running hphase hloaded hopcode hargs
    · -- A machine that has left the program executes nothing.
      have halted := gone.halted
      rw [show m.halted = false from running] at halted
      cases halted
  · intro other h m twin
    have alike : Alike m twin := alike_start program h
    have cycle : InCycle m := .of_fetch rfl
    have stays : ∀ n, Alike (m.after n) (twin.after n) := by
      intro n
      induction n with
      | zero => exact alike
      | succ n ih =>
        obtain ⟨reached, htwin, next⟩ := ih.tick (inCycle_after program schedule n)
        show Alike (m.after n).tick.1 (twin.after n).tick.1
        rwa [htwin]
    refine ⟨fun n => ⟨stays n, ?_⟩, fun limit => ?_⟩
    · obtain ⟨reached, htwin, -⟩ := (stays n).tick (inCycle_after program schedule n)
      rw [htwin]
    · obtain ⟨ends, fault⟩ := alike.runFor cycle (limit - 0).toNat
      obtain ⟨trace, shown⟩ := alike.traceFor cycle (limit - 0).toNat ""
      exact ⟨ends, fault, trace, shown⟩

/-- A schedule out of order, with two values for one sensor at the tick of the read, one value
after it and one before tick zero; and the same events in another order. -/
theorem sensor_shows_last_writer_out_of_order :
    let read : Instr := .plain .sensor ["x", "tank", "level"]
    let program := [read, .plain .print ["x"], .plain .printflush ["panel"]]
    let schedule : List SensorEvent :=
      [⟨3, "tank", "level", .int 8⟩, ⟨2, "tank", "level", .int 5⟩, ⟨2, "fan", "speed", .int 1⟩,
        ⟨2, "tank", "level", .int 6⟩, ⟨-1, "tank", "level", .int 9⟩, ⟨0, "tank", "level", .int 7⟩]
    let other : List SensorEvent :=
      [⟨-1, "tank", "level", .int 9⟩, ⟨0, "tank", "level", .int 7⟩, ⟨2, "fan", "speed", .int 1⟩,
        ⟨2, "tank", "level", .int 5⟩, ⟨2, "tank", "level", .int 6⟩, ⟨3, "tank", "level", .int 8⟩]
    let m := (start program schedule).after 2
    m.halted = false ∧ m.phase = .execute ∧ m.loaded = some read ∧
      (∃ value, (∀ shown, Reports schedule "tank" "level" 2 shown ↔ shown = value) ∧
        m.tick = ({ m.sense with environment := m.sense.environment.write "x" value }.counted,
          none)) ∧
      m.tick.1.environment.store.get? "x" = some (.int 6) ∧ Interchangeable schedule other ∧
      ∀ limit, ((start program other).run limit).2 = ((start program schedule).run limit).2 := by
  intro read program schedule other m
  have interchangeable : Interchangeable schedule other := by decide
  obtain ⟨reads, runs⟩ := sensor_shows_last_writer program schedule
  exact ⟨rfl, rfl, rfl, reads 2 read "x" "tank" "level" rfl rfl rfl rfl rfl, rfl, interchangeable,
    fun limit => ((runs other interchangeable).2 limit).2.1⟩

end Machine

end Tickscript
