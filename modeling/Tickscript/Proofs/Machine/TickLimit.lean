import Tickscript.Proofs.Machine.Conservation
import Tickscript.Proofs.Machine.Refusal
import Tickscript.Proofs.Machine.Tracing

/-!
# `Tickscript.Proofs.Machine.TickLimit`: a limit only truncates

`Machine.run` counts the ticks that are left and then runs for so many. The loop it stands for
looks at the clock before each tick instead. `Loops` is this loop, as a relation that holds only
if the loop comes to an end. The two agree (`InCycle.loops_run`, `Loops.eq_run`), because a tick
that succeeds moves the clock by one: there are as many ticks left for the one as for the other.

All that is said about a limit is then proved by induction on the loop: where the clock stands
when it ends, and what a higher limit makes of the machine it leaves. A loop that stops at its
limit is one that a higher limit would have continued in the same way; one that stops with a fault
leaves a machine that fails again.

Messages are never taken back. What a tick does to the outputs is to deliver at most one message
(`Continues`), so the outputs under a limit are the beginning of those under a higher one.
-/

set_option autoImplicit false

namespace Tickscript

/-! ### Outputs that grow -/

/-- Setting a key leaves the keys before it in their places. A new key comes last, and a known one
stays where it is. -/
theorem Table.keys_prefix_set {κ α : Type} [DecidableEq κ] (t : Table κ α) (key : κ) (entry : α) :
    t.keys <+: (t.set key entry).keys := by
  rw [keys_set]
  split
  · exact List.prefix_rfl
  · exact List.prefix_append _ _

/-- The outputs `later` continue the outputs `o`: the devices of `o` come first and in the same
order, and each device has its messages first. So a text of the outputs, taken device by device,
only grows at the ends. -/
structure Outputs.Continues (o later : Outputs) : Prop where
  devices : o.keys <+: later.keys
  messages : ∀ device, (o.get? device).getD [] <+: (later.get? device).getD []

namespace Outputs.Continues

variable {o later last : Outputs}

/-- Outputs continue themselves. Most ticks deliver nothing, and this is what they do. -/
theorem refl (o : Outputs) : o.Continues o :=
  ⟨List.prefix_rfl, fun _ => List.prefix_rfl⟩

/-- What continues a continuation continues the first. Ticks are put together with this. -/
theorem trans (h : o.Continues later) (h' : later.Continues last) : o.Continues last :=
  ⟨h.devices.trans h'.devices, fun device => (h.messages device).trans (h'.messages device)⟩

/-- A message comes after those that were delivered before it, and a device that had none comes
after the others. -/
theorem deliver (o : Outputs) (device message : String) :
    o.Continues (o.deliver device message) := by
  refine ⟨Table.keys_prefix_set o device _, ?_⟩
  intro d
  rw [Outputs.deliver, Table.get?_set]
  by_cases hd : d = device
  · rw [if_pos hd, hd]
    exact List.prefix_append _ _
  · rw [if_neg hd]

end Outputs.Continues

namespace Machine

variable {m next : Machine} {i : Instr} {limit : Int}

/-- An action delivers at most one message. This is read off `Speaks`, which says all that an
action does to the outputs. -/
theorem continues_of_perform {action : Action} (h : m.perform action = .ok next) :
    m.environment.outputs.Continues next.environment.outputs := by
  have spoken := speaks_of_perform h
  generalize m.environment.textOf? action = text at spoken
  generalize m.environment.messageOf? action = message at spoken
  cases spoken with
  | nothing buffer outputs =>
    rw [outputs]
    exact .refl _
  | text text buffer outputs =>
    rw [outputs]
    exact .refl _
  | message device buffer outputs =>
    rw [outputs]
    exact .deliver _ device _

/-- A tick takes no message back. Only the one that executes an instruction can deliver one. -/
theorem Ticked.continues {result : Machine × Option Fault} (ticked : Ticked m result) :
    m.environment.outputs.Continues result.1.environment.outputs := by
  cases ticked with
  | refused fault => exact .refl _
  | left hphase => exact .refl _
  | fetched a i hphase hcounter hi => exact .refl _
  | latched hphase => exact .refl _
  | executed i next hphase hi hexecute =>
    obtain ⟨action, -, hperform⟩ := bind_eq_ok hexecute
    show m.sense.environment.outputs.Continues next.environment.outputs
    exact continues_of_perform hperform

/-! ### The loop -/

/-- The loop that a limit stands for. It ends at the limit or with a halted machine; else it takes
a tick and, unless that fails, goes on. There is a fourth way, namely to go on for ever, but a
relation that is defined by its ends does not have it. -/
inductive Loops (limit : Int) : Machine → Machine × Option Fault → Prop where
  | stop (m : Machine) (h : limit ≤ m.ticks ∨ m.halted = true) : Loops limit m (m, none)
  | refuse (m left : Machine) (fault : Fault) (before : m.ticks < limit)
      (running : m.halted = false)
      (htick : m.tick = (left, some fault)) : Loops limit m (left, some fault)
  | go (m next : Machine) (result : Machine × Option Fault) (before : m.ticks < limit)
      (running : m.halted = false) (htick : m.tick = (next, none))
      (rest : Loops limit next result) :
      Loops limit m result

/-- A tick that succeeds stays in the cycle and moves the clock by one, also if it halts the
machine. -/
theorem InCycle.of_tick (h : InCycle m) (running : m.halted = false)
    (htick : m.tick = (next, none)) :
    InCycle next ∧ next.ticks = m.ticks + 1 := by
  have cycle := h.tick
  have ticked := h.ticked running
  rw [htick] at cycle ticked
  exact ⟨cycle, ticked.ticks⟩

/-- A run ends where the loop does: at once if the limit is reached or the machine has halted. -/
theorem run_of_stop (h : limit ≤ m.ticks ∨ m.halted = true) : m.run limit = (m, none) := by
  rcases h with expired | halted
  · have none : (limit - m.ticks).toNat = 0 := by omega
    rw [run, none]
    rfl
  · exact runFor_of_halted halted _

/-- A run fails where the loop does, and with the machine that the failing tick has left. -/
theorem run_of_refused {left : Machine} {fault : Fault} (before : (m.ticks : Int) < limit)
    (running : m.halted = false) (htick : m.tick = (left, some fault)) :
    m.run limit = (left, some fault) := by
  obtain ⟨count, hcount⟩ : ∃ count, (limit - m.ticks).toNat = count + 1 :=
    ⟨(limit - m.ticks).toNat - 1, by omega⟩
  simp only [run, hcount, runFor, running, Bool.false_eq_true, if_false, htick]

/-- A run goes on as the loop does: one tick has passed, and one less is left. This equation is
what ties counting down to looking at the clock. -/
theorem InCycle.run_of_tick (h : InCycle m) (before : (m.ticks : Int) < limit)
    (running : m.halted = false) (htick : m.tick = (next, none)) :
    m.run limit = next.run limit := by
  obtain ⟨-, hticks⟩ := h.of_tick running htick
  have left : (limit - m.ticks).toNat = (limit - next.ticks).toNat + 1 := by omega
  rw [run, left, runFor_succ running htick, run]

/-- The loop comes to an end, where `run` does. So the relation is total, and `run` is one of its
ways to end. -/
theorem InCycle.loops_run (h : InCycle m) (limit : Int) : Loops limit m (m.run limit) := by
  -- The number of ticks left goes down with every tick that succeeds.
  induction hleft : (limit - m.ticks).toNat generalizing m with
  | zero =>
    have stop : limit ≤ m.ticks ∨ m.halted = true := Or.inl (by omega)
    rw [run_of_stop stop]
    exact .stop m stop
  | succ left ih =>
    have before : (m.ticks : Int) < limit := by omega
    cases running : m.halted with
    | true =>
      rw [run_of_stop (Or.inr running)]
      exact .stop m (Or.inr running)
    | false =>
      cases htick : m.tick with
      | mk next outcome =>
        cases outcome with
        | none =>
          obtain ⟨cycle, hticks⟩ := h.of_tick running htick
          rw [h.run_of_tick before running htick]
          exact .go m next _ before running htick (ih cycle (by omega))
        | some fault =>
          rw [run_of_refused before running htick]
          exact .refuse m next fault before running htick

namespace Loops

variable {result : Machine × Option Fault}

/-- The loop can end in no other way than `run`. The induction is on the loop, and each of its
rules is an equation of `run`. -/
theorem eq_run (loops : Loops limit m result) (h : InCycle m) : m.run limit = result := by
  induction loops with
  | stop m stop => exact run_of_stop stop
  | refuse m left fault before running htick => exact run_of_refused before running htick
  | go m next result before running htick rest ih =>
    rw [h.run_of_tick before running htick]
    exact ih (h.of_tick running htick).1

/-- A loop without a fault ends with a halted machine or at the limit, unless the clock was past
it from the beginning. It never runs over the limit. -/
theorem halted_or_expired (loops : Loops limit m result) (h : InCycle m)
    (succeeded : result.2 = none) :
    result.1.halted = true ∨ (result.1.ticks : Int) = max (m.ticks : Int) limit := by
  induction loops with
  | stop m stop =>
    rcases stop with expired | halted
    · exact Or.inr (Int.max_eq_left expired).symm
    · exact Or.inl halted
  | refuse m left fault before running htick => cases succeeded
  | go m next result before running htick rest ih =>
    obtain ⟨cycle, hticks⟩ := h.of_tick running htick
    have same : max (next.ticks : Int) limit = max (m.ticks : Int) limit := by omega
    rw [← same]
    exact ih cycle succeeded

/-- A loop leaves the machine in its cycle, so that it can be continued. -/
theorem inCycle (loops : Loops limit m result) (h : InCycle m) : InCycle result.1 := by
  induction loops with
  | stop m stop => exact h
  | refuse m left fault before running htick =>
    have cycle := h.tick
    rwa [htick] at cycle
  | go m next result before running htick rest ih => exact ih (h.of_tick running htick).1

/-- A loop can be continued with a higher limit, to where that leads from the start. This is clear
for a loop that stopped; one that failed needs a closer look. -/
theorem run_again (loops : Loops limit m result) (h : InCycle m) {higher : Int}
    (hle : limit ≤ higher) :
    result.1.run higher = m.run higher := by
  induction loops with
  | stop m stop => rfl
  | refuse m left fault before running htick =>
    -- The machine that is left reads the sensors of the same tick again, and fails again.
    have refused : m.tick.2 = some fault := by rw [htick]
    obtain ⟨-, -, hleft⟩ := tick_eq_of_refused refused
    have again := tick_sense_of_refused refused
    rw [htick] at hleft
    cases hleft
    have early : (m.ticks : Int) < higher := by omega
    rw [run_of_refused early running htick]
    exact run_of_refused (m := m.sense) early running again
  | go m next result before running htick rest ih =>
    rw [h.run_of_tick (by omega) running htick]
    exact ih (h.of_tick running htick).1

/-- A loop takes no message back, whether it halts, fails or reaches the limit. -/
theorem continues (loops : Loops limit m result) (h : InCycle m) :
    m.environment.outputs.Continues result.1.environment.outputs := by
  induction loops with
  | stop m stop => exact .refl _
  | refuse m left fault before running htick =>
    have ticked := (h.ticked running).continues
    rwa [htick] at ticked
  | go m next result before running htick rest ih =>
    have ticked := (h.ticked running).continues
    rw [htick] at ticked
    exact ticked.trans (ih (h.of_tick running htick).1)

end Loops

/-- **A limit only truncates.** Over any program and any schedule:

- for every limit the loop comes to an end, in one way only, and `run` tells which;
- a run without a fault has halted or has reached the limit;
- every tick of a running machine that succeeds moves the clock by one;
- what a limit has stopped can be continued with a higher one, to where that leads from the start,
  also after a fault;
- the outputs under the higher limit continue those under the lower one. -/
theorem limit_only_truncates (program : List Instr) (schedule : List SensorEvent)
    {short long : Int} (hle : short ≤ long) :
    let m := start program schedule
    (∀ limit result, Loops limit m result ↔ m.run limit = result) ∧
      (∀ limit, (m.run limit).2 = none →
        (m.run limit).1.halted = true ∨ ((m.run limit).1.ticks : Int) = max 0 limit) ∧
      (∀ n, (m.after n).halted = false → (m.after n).tick.2 = none →
        (m.after n).tick.1.ticks = (m.after n).ticks + 1) ∧
      (m.run short).1.run long = m.run long ∧
      (m.run short).1.environment.outputs.Continues (m.run long).1.environment.outputs := by
  intro m
  have cycle : InCycle m := .of_fetch rfl
  have loops : ∀ limit, Loops limit m (m.run limit) := cycle.loops_run
  have continued : (m.run short).1.run long = m.run long := (loops short).run_again cycle hle
  refine ⟨?_, ?_, ?_, continued, ?_⟩
  · intro limit result
    exact ⟨fun ends => ends.eq_run cycle, fun h => h ▸ loops limit⟩
  · intro limit succeeded
    exact (loops limit).halted_or_expired cycle succeeded
  · intro n running succeeded
    have ticked := (inCycle_after program schedule n).ticked running
    exact Ticked.ticks (by rwa [← succeeded])
  · -- The higher limit continues the machine that the lower one has left.
    have left : InCycle (m.run short).1 := (loops short).inCycle cycle
    rw [← continued]
    exact (left.loops_run long).continues left

/-- A loop that prints to two devices in turn, stopped before the second one is known and again
after the first one had its second message. -/
theorem limit_only_truncates_of_endless_loop :
    let program : List Instr :=
      [.plain .print ["1"], .plain .printflush ["left"], .plain .print ["2"],
        .plain .printflush ["right"], .jumpTo 0 ["always"]]
    let outputs (limit : Int) := ((start program []).run limit).1.environment.outputs
    (8 : Int) ≤ 21 ∧ (outputs 8).entries = [("left", ["1"])] ∧
      (outputs 21).entries = [("left", ["1", "1"]), ("right", ["2"])] ∧
      ((start program []).run 8).1.run 21 = (start program []).run 21 ∧
      (outputs 8).Continues (outputs 21) := by
  intro program outputs
  have hle : (8 : Int) ≤ 21 := by decide
  obtain ⟨-, -, -, continued, continues⟩ := limit_only_truncates program [] hle
  exact ⟨hle, by decide +kernel, by decide +kernel, continued, continues⟩

end Machine

end Tickscript
