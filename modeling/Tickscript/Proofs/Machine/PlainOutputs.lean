import Tickscript.Proofs.Machine.Tracing
import Tickscript.Proofs.Text.Newlines
import Tickscript.Proofs.Value.Operations

/-!
# `Tickscript.Proofs.Machine.PlainOutputs`: no carriage return is ever printed

A machine that runs a program from a text prints no carriage return, if its sensors report none
(`noReturn_format_of_run`). Lines of a program end at carriage returns, so no argument holds one.
All texts that a machine works on come from arguments and sensors, and what operations compute are
numbers. The invariant is `Environment.NoReturn`: it covers variables, buffer, sensors and
messages at once, because texts move from each of them to the next.
-/

set_option autoImplicit false

namespace Tickscript

open Tickscript.Text

/-- An entry of a table after setting a key is the new one or an old one. The induction is on the
entries, as `Table.set` goes through them. -/
theorem Table.mem_entries_set {κ α : Type} [DecidableEq κ] {t : Table κ α} {key : κ} {value : α}
    {entry : κ × α} (h : entry ∈ (t.set key value).entries) :
    entry = (key, value) ∨ entry ∈ t.entries := by
  obtain ⟨entries⟩ := t
  simp only [Table.set] at h ⊢
  induction entries with
  | nil => exact .inl (List.mem_singleton.mp h)
  | cons head rest ih =>
    unfold Table.setIn at h
    split at h
    · exact (List.mem_cons.mp h).imp_right (List.mem_cons_of_mem _)
    · rcases List.mem_cons.mp h with rfl | h
      · exact .inr List.mem_cons_self
      · exact (ih h).imp_right (List.mem_cons_of_mem _)

/-! ### Values -/

/-- Operations compute numbers or nothing, so no text comes out of them. The cases are the
operations by their words. -/
theorem Value.noReturn_compute {word : String} {a b value : Value}
    (h : Value.compute word a b = .ok value) : value.NoReturn := by
  have number : ∀ n : Number, n.toValue.NoReturn := by
    intro n
    cases n <;> trivial
  have optional : ∀ n : Option Number, (Value.ofNumber? n).NoReturn := by
    intro n
    cases n with
    | none => trivial
    | some n => exact number n
  unfold Value.compute at h
  split at h
  · cases hcompare : Value.compare word a b with
    | error fault =>
      rw [hcompare] at h
      cases h
    | ok holds =>
      rw [hcompare] at h
      cases h
      trivial
  · -- The four operations that may be refused, the power, and a word that is none.
    unfold Number.calculate at h
    split at h
    · cases hadd : a.toNumber.add b.toNumber <;> rw [hadd] at h <;> cases h
      exact number _
    · cases hsub : a.toNumber.sub b.toNumber <;> rw [hsub] at h <;> cases h
      exact number _
    · cases hmul : a.toNumber.mul b.toNumber <;> rw [hmul] at h <;> cases h
      exact number _
    · cases hdiv : a.toNumber.div b.toNumber <;> rw [hdiv] at h <;> cases h
      exact optional _
    · cases h
      exact optional _
    · cases h

namespace Environment

/-- No text in the environment holds a carriage return:

- `store`: no variable has such a value;
- `buffer`: what is printed and not delivered has none;
- `readings`: no sensor reports such a value;
- `outputs`: neither the names of devices nor their messages have one. -/
structure NoReturn (e : Environment) : Prop where
  store : ∀ name value, e.store.get? name = some value → value.NoReturn
  buffer : Tickscript.NoReturn e.buffer
  readings : ∀ sensor value, e.readings.get? sensor = some value → value.NoReturn
  outputs : ∀ entry ∈ e.outputs.entries, Tickscript.NoReturn entry.1 ∧
    ∀ message ∈ entry.2, Tickscript.NoReturn message

variable {e : Environment}

/-- What an argument stands for has no carriage return, if the argument has none: a literal is
part of the argument, a number and a constant are no texts, and a variable is in the store. -/
theorem NoReturn.read (h : e.NoReturn) {arg : String} (harg : Tickscript.NoReturn arg)
    {value : Value} (hread : e.read arg = .ok value) : value.NoReturn := by
  have operand : ∀ v, Value.ofOperand e.store arg = .ok v → v.NoReturn := by
    intro v hv
    unfold Value.ofOperand at hv
    split at hv
    · rename_i body hbody
      cases hv
      exact noReturn_literalBody? harg hbody
    · split at hv
      · cases hinteger : Numeral.readInteger arg <;> rw [hinteger] at hv <;> cases hv
        trivial
      · cases hv
        trivial
      · cases hv
        cases hconstant : constant? arg with
        | some constant =>
          unfold constant? at hconstant
          split at hconstant <;> cases hconstant <;> trivial
        | none =>
          cases hstored : e.store.get? arg with
          | none => trivial
          | some stored => exact h.store arg stored hstored
  unfold Environment.read at hread
  cases hoperand : Value.ofOperand e.store arg with
  | error fault =>
    rw [hoperand] at hread
    cases hread
  | ok v =>
    rw [hoperand] at hread
    cases hread
    exact operand _ hoperand

/-- A value without carriage returns may be written to any variable. -/
theorem NoReturn.write (h : e.NoReturn) (name : String) {value : Value}
    (hvalue : value.NoReturn) : (e.write name value).NoReturn := by
  refine ⟨fun other v hv => ?_, h.buffer, h.readings, h.outputs⟩
  rw [Environment.write, Table.get?_set] at hv
  split at hv
  · cases hv
    exact hvalue
  · exact h.store other v hv

/-- Printing adds the text of a value to the buffer, and the text has no carriage return if the
value has none. -/
theorem NoReturn.print (h : e.NoReturn) {value : Value} (hvalue : value.NoReturn)
    {after : Environment} (hprint : e.print value = .ok after) : after.NoReturn := by
  unfold Environment.print at hprint
  split at hprint
  · rename_i text htext
    cases hprint
    exact ⟨h.store, h.buffer.append (hvalue.format htext), h.readings, h.outputs⟩
  · cases hprint

/-- Delivering moves the buffer to the messages of a device. The name of the device comes from an
argument, so it is part of what must have no carriage return. -/
theorem NoReturn.flush (h : e.NoReturn) {device : String} (hdevice : Tickscript.NoReturn device) :
    (e.flush device).NoReturn := by
  have empty : Tickscript.NoReturn "" := by decide
  refine ⟨h.store, empty, h.readings, fun entry hentry => ?_⟩
  rcases Table.mem_entries_set hentry with rfl | hentry
  · refine ⟨hdevice, fun message hmessage => ?_⟩
    rcases List.mem_append.mp hmessage with hmessage | hmessage
    · cases hold : e.outputs.get? device with
      | none =>
        rw [hold] at hmessage
        cases hmessage
      | some messages =>
        rw [hold] at hmessage
        exact (h.outputs _ (Table.mem_of_get? hold)).2 message hmessage
    · rw [List.mem_singleton.mp hmessage]
      exact h.buffer
  · exact h.outputs entry hentry

end Environment

/-- Sensors report what the events of the schedule say, or what they reported before. The
induction is on the events of the tick. -/
theorem Readings.noReturn_advance {schedule : List SensorEvent}
    (h : ∀ e ∈ schedule, e.value.NoReturn) (tick : Int) {r : Readings}
    (hr : ∀ sensor value, r.get? sensor = some value → value.NoReturn) :
    ∀ sensor value, (r.advance schedule tick).get? sensor = some value → value.NoReturn := by
  have events : ∀ e ∈ schedule.filter (·.tick = tick), e.value.NoReturn :=
    fun e he => h e (List.mem_filter.mp he).1
  unfold Readings.advance
  -- The induction is on the events that happen, and the schedule plays no further part.
  generalize schedule.filter (·.tick = tick) = happening at events
  induction happening generalizing r with
  | nil => exact hr
  | cons event rest ih =>
    refine ih (fun sensor value hvalue => ?_) fun e he => events e (List.mem_cons_of_mem _ he)
    rw [Readings.record, Table.get?_set] at hvalue
    split at hvalue
    · cases hvalue
      exact events event List.mem_cons_self
    · exact hr sensor value hvalue

namespace Machine

variable {m next : Machine}

/-- An instruction whose arguments have no carriage returns brings none into the environment. The
cases are its actions: five of them change the environment, and each has its lemma above. -/
theorem noReturn_of_execute (h : m.environment.NoReturn) {i : Instr}
    (args : ∀ arg ∈ i.args, NoReturn arg) (hexecute : m.execute i = .ok next) :
    next.environment.NoReturn := by
  obtain ⟨action, haction, hperform⟩ := bind_eq_ok hexecute
  unfold Instr.action at haction
  split at haction <;> cases haction
  · rename_i dest source _ _ hargs
    obtain ⟨value, hvalue, hperform⟩ := bind_eq_ok hperform
    cases hperform
    exact h.write dest (h.read (args source (by simp [hargs])) hvalue)
  · -- What an operation writes is a number, whatever its operands are.
    obtain ⟨a, -, hperform⟩ := bind_eq_ok hperform
    obtain ⟨b, -, hperform⟩ := bind_eq_ok hperform
    obtain ⟨value, hvalue, hperform⟩ := bind_eq_ok hperform
    cases hperform
    exact h.write _ (Value.noReturn_compute hvalue)
  · rename_i object property _ _
    cases hperform
    refine h.write _ ?_
    unfold Readings.read
    cases hreading : m.environment.readings.get? (object, property) with
    | none => trivial
    | some value => exact h.readings _ value hreading
  · obtain ⟨a, -, hperform⟩ := bind_eq_ok hperform
    obtain ⟨b, -, hperform⟩ := bind_eq_ok hperform
    obtain ⟨taken, -, hperform⟩ := bind_eq_ok hperform
    cases taken <;> cases hperform <;> exact h
  · rename_i source _ _ hargs
    obtain ⟨value, hvalue, hperform⟩ := bind_eq_ok hperform
    obtain ⟨after, hafter, hperform⟩ := bind_eq_ok hperform
    cases hperform
    exact h.print (h.read (args source (by simp [hargs])) hvalue) hafter
  · rename_i device _ _ hargs
    cases hperform
    exact h.flush (args device (by simp [hargs]))
  · cases hperform
    exact h

/-- What a machine without carriage returns keeps along its run:

- `cycle`: the instruction in progress is one of the program;
- `program`: no argument has a carriage return;
- `schedule`: no event has one;
- `environment`: nothing that the machine works on has one. -/
structure PlainRun (m : Machine) : Prop where
  cycle : InCycle m
  program : ∀ i ∈ m.program, ∀ arg ∈ i.args, NoReturn arg
  schedule : ∀ e ∈ m.schedule, e.value.NoReturn
  environment : m.environment.NoReturn

/-- The sensor events of a tick bring none either, as they come from the schedule. -/
theorem PlainRun.sense (h : PlainRun m) : m.sense.environment.NoReturn :=
  ⟨h.environment.store, h.environment.buffer,
    Readings.noReturn_advance h.schedule m.ticks h.environment.readings, h.environment.outputs⟩

/-- A tick keeps program and schedule and brings no carriage return. Only one of the five ways to
take a tick changes more than the sensors. -/
theorem PlainRun.ticked (h : PlainRun m) {result : Machine × Option Fault}
    (ticked : Ticked m result) :
    result.1.program = m.program ∧ result.1.schedule = m.schedule ∧
      result.1.environment.NoReturn := by
  cases ticked with
  | refused fault => exact ⟨rfl, rfl, h.sense⟩
  | left hphase => exact ⟨rfl, rfl, h.sense⟩
  | fetched a i hphase hcounter hi => exact ⟨rfl, rfl, h.sense⟩
  | latched hphase => exact ⟨rfl, rfl, h.sense⟩
  | executed i next hphase hi hexecute =>
    have plain : next.environment.NoReturn :=
      noReturn_of_execute h.sense (h.program i (Array.mem_of_getElem? hi)) hexecute
    rcases execute_cases hexecute with ⟨e, rfl⟩ | ⟨-, rfl⟩ | ⟨-, rfl⟩ <;> exact ⟨rfl, rfl, plain⟩

/-- The same of a tick of any machine: a halted one stands still, and a running one is in its
cycle. -/
theorem PlainRun.tick (h : PlainRun m) : PlainRun m.tick.1 := by
  cases hhalted : m.halted with
  | true =>
    rw [tick_of_halted hhalted]
    exact h
  | false =>
    obtain ⟨program, schedule, environment⟩ := h.ticked (h.cycle.ticked hhalted)
    exact ⟨h.cycle.tick, program ▸ h.program, schedule ▸ h.schedule, environment⟩

/-- The same of a run, by induction on the number of ticks. A fault ends the run and keeps the
machine that the failing tick has left. -/
theorem PlainRun.runFor (h : PlainRun m) (count : Nat) : PlainRun (m.runFor count).1 := by
  induction count generalizing m with
  | zero => exact h
  | succ count ih =>
    unfold Machine.runFor
    split
    · exact h
    · have next := h.tick
      split
      · rename_i reached htick
        rw [htick] at next
        exact ih next
      · rename_i reached fault htick
        rw [htick] at next
        exact next

/-- A machine starts this way if its program was decoded from a text. Lines end at carriage
returns, so an argument, which is part of one line, has none. -/
theorem plainRun_start {text : String} {code : List Instr} (hcode : decode text = .ok code)
    {schedule : List SensorEvent} (hschedule : ∀ e ∈ schedule, e.value.NoReturn) :
    PlainRun (start code schedule) where
  cycle := .of_fetch rfl
  program i hi arg harg hreturn := by
    have oneLine := (legible_of_decode hcode i (by simpa [start] using hi)).2 arg harg _ hreturn
    revert oneLine
    decide
  schedule := hschedule
  environment := ⟨nofun, (by decide : NoReturn ""), nofun, nofun⟩

/-- **No carriage return is printed.** Whatever a program from a text gives within a limit, its
messages have none, if the values of the schedule have none. The limit may be any, and the run may
end in a fault: the messages are those delivered until then. -/
theorem noReturn_format_of_run {text : String} {code : List Instr}
    (hcode : decode text = .ok code) {schedule : List SensorEvent}
    (hschedule : ∀ e ∈ schedule, e.value.NoReturn) (limit : Int) :
    NoReturn ((start code schedule).run limit).1.environment.outputs.format := by
  have outputs := ((plainRun_start hcode hschedule).runFor (limit - 0).toNat).environment.outputs
  refine noReturn_join fun line hline => ?_
  obtain ⟨entry, hentry, hline⟩ := List.mem_flatMap.mp hline
  obtain ⟨message, hmessage, rfl⟩ := List.mem_map.mp hline
  obtain ⟨device, messages⟩ := outputs entry hentry
  exact ((device.append (by decide)).append (messages message hmessage)).append (by decide)

end Machine

end Tickscript
