import Tickscript.Machine
import Tickscript.Proofs.Except

/-!
# `Tickscript.Proofs.Machine.Cycle`: one tick, one instruction, one run

What a tick does depends on the phase alone, and `tick_fetch`, `tick_latch`, `tick_execute` and
`tick_refused` say what it does; no other proof opens `tick`. `execute_cases` says what executing
an instruction can change.

`InCycle` ties the counter and the loaded instruction to the phase. It holds of a machine over any
program and any schedule, after any number of ticks, those that fail included (`inCycle_after`). A
machine in its cycle has five ways to take a tick (`Ticked`).

The three ticks of an instruction come together in `runFor_cycle` and `runFor_cycle_error`: a
machine that is about to fetch the instruction at `a` executes it as `prepared a`, that is with
the counter moved on and with the sensor events of all three ticks. `runFor_add` cuts a run in
two.
-/

set_option autoImplicit false

namespace Tickscript

/-! ### The phases -/

/-- How many ticks of an instruction have passed when a phase begins. The clock of a machine that
has executed `n` instructions and failed at none shows `3 * n` ticks and this many more. -/
def Phase.offset : Phase → Nat
  | .fetch => 0
  | .latch => 1
  | .execute => 2

/-- An instruction that is not finished has taken at most two ticks. With this the clock bounds
the number of instructions, whatever the phase is. -/
theorem Phase.offset_le_two (phase : Phase) : phase.offset ≤ 2 := by
  cases phase <;> decide

namespace Machine

variable {m next : Machine} {i : Instr} {fault : Fault}

/-! ### One tick -/

/-- A halted machine stands still: its clock does not move, and not even the sensors are read. -/
theorem tick_of_halted (h : m.halted = true) : m.tick = (m, none) := by
  rw [tick, if_pos h]

/-- A tick whose phase succeeds moves the clock. The sensor events of the tick have happened
before the phase begins. -/
theorem tick_of_ok (running : m.halted = false) (h : m.sense.phaseStep = .ok next) :
    m.tick = ({ next with ticks := next.ticks + 1 }, none) := by
  rw [tick, if_neg (by simp [running]), advance, h]
  rfl

/-- A tick whose phase fails changes only the sensors. The clock stands still, so the same tick is
tried again the next time. -/
theorem tick_refused (running : m.halted = false) (h : m.sense.phaseStep = .error fault) :
    m.tick = (m.sense, some fault) := by
  rw [tick, if_neg (by simp [running]), advance, h]
  rfl

/-- The machine that has fetched the instruction at `a`: the instruction is loaded, its address is
kept, and the counter has not moved yet. -/
def fetched (m : Machine) (a : Nat) (i : Instr) : Machine :=
  { m.sense with loaded := some i, lastAddress := a, phase := .latch, ticks := m.ticks + 1 }

/-- The instruction at the counter is fetched, if there is one. The two other ways that a fetch
can end are in `tick_of_fetch`. -/
theorem tick_fetch {a : Nat} (running : m.halted = false) (hphase : m.phase = .fetch)
    (hcounter : m.counter = some (a : Int)) (hi : m.program[a]? = some i) :
    m.tick = (m.fetched a i, none) := by
  have step : m.sense.phaseStep =
      .ok { m.sense with loaded := some i, lastAddress := a, phase := .latch } := by
    have hnat : ¬(a : Int) < 0 := by omega
    simp only [phaseStep, sense, hphase, fetch, hcounter, hnat, if_false, Int.toNat_natCast, hi]
  rw [tick_of_ok running step]
  rfl

/-- The machine that has moved its counter on. The counter moves before the instruction is
executed, so a jump overwrites what this has written. -/
def latched (m : Machine) : Machine :=
  { m.sense with counter := m.counter.map (· + 1), phase := .execute, ticks := m.ticks + 1 }

/-- The counter moves on. This cannot fail, whatever the counter is. -/
theorem tick_latch (running : m.halted = false) (hphase : m.phase = .latch) :
    m.tick = (m.latched, none) := by
  have step : m.sense.phaseStep = .ok m.sense.latch := by
    simp only [phaseStep, sense, hphase]
  rw [tick_of_ok running step]
  rfl

/-- What is left of a machine to do after an instruction was executed: the instruction and the
tick are counted, and the next instruction can be fetched. -/
def counted (m : Machine) : Machine :=
  { m with executed := m.executed + 1, phase := .fetch, ticks := m.ticks + 1 }

/-- The loaded instruction is executed, on the machine that has read the sensors of this tick. -/
theorem tick_execute (running : m.halted = false) (hphase : m.phase = .execute)
    (hloaded : m.loaded = some i) (h : m.sense.execute i = .ok next) :
    m.tick = (next.counted, none) := by
  have step : m.sense.phaseStep =
      .ok { next with executed := next.executed + 1, phase := .fetch } := by
    have hsense : m.sense.phase = .execute := hphase
    have hkept : m.sense.loaded = some i := hloaded
    simp only [phaseStep, hsense, finishInstr, hkept, h, Except.map]
  rw [tick_of_ok running step]
  rfl

/-- The loaded instruction fails. It stays loaded and the phase stays, so the machine is stuck
here. -/
theorem tick_execute_error (running : m.halted = false) (hphase : m.phase = .execute)
    (hloaded : m.loaded = some i) (h : m.sense.execute i = .error fault) :
    m.tick = (m.sense, some fault) := by
  have step : m.sense.phaseStep = .error fault := by
    have hsense : m.sense.phase = .execute := hphase
    have hkept : m.sense.loaded = some i := hloaded
    simp only [phaseStep, hsense, finishInstr, hkept, h, Except.map]
  exact tick_refused running step

/-! ### What an instruction can change -/

/-- What performing an action can change: only a jump touches the counter, and only the end of a
program halts the machine. Everything else works on the environment. -/
theorem perform_cases {action : Action} (h : m.perform action = .ok next) :
    (∃ e, next = { m with environment := e }) ∨
      (∃ condition left right target, action = .jump condition left right target ∧
        next = { m with counter := target }) ∨
      (action = .halt ∧ next = { m with halted := true }) := by
  cases action with
  | set dest source =>
    obtain ⟨value, -, h⟩ := bind_eq_ok h
    cases h
    exact Or.inl ⟨_, rfl⟩
  | compute operation dest left right =>
    obtain ⟨a, -, h⟩ := bind_eq_ok h
    obtain ⟨b, -, h⟩ := bind_eq_ok h
    obtain ⟨value, -, h⟩ := bind_eq_ok h
    cases h
    exact Or.inl ⟨_, rfl⟩
  | sense dest object property =>
    cases h
    exact Or.inl ⟨_, rfl⟩
  -- A jump whose condition does not hold changes nothing at all.
  | jump condition left right target =>
    obtain ⟨a, -, h⟩ := bind_eq_ok h
    obtain ⟨b, -, h⟩ := bind_eq_ok h
    obtain ⟨taken, -, h⟩ := bind_eq_ok h
    cases taken with
    | true =>
      cases h
      exact Or.inr (Or.inl ⟨condition, left, right, target, rfl, rfl⟩)
    | false =>
      cases h
      exact Or.inl ⟨_, rfl⟩
  | print source =>
    obtain ⟨value, -, h⟩ := bind_eq_ok h
    obtain ⟨e, -, h⟩ := bind_eq_ok h
    cases h
    exact Or.inl ⟨_, rfl⟩
  | flush device =>
    cases h
    exact Or.inl ⟨_, rfl⟩
  | halt =>
    cases h
    exact Or.inr (Or.inr ⟨rfl, rfl⟩)

/-- Only jumps ask for a jump, to their own target. The target is not an argument, so it is not
decoded from a text when the jump is taken. -/
theorem opcode_of_action_jump {condition : String} {left right : Option String}
    {target : Option Int} (h : i.action = .ok (.jump condition left right target)) :
    i.opcode = .jump ∧ target = i.target := by
  unfold Instr.action at h
  split at h <;> cases h
  exact ⟨by assumption, rfl⟩

/-- Only the end of a program asks for a halt. A machine can also halt without it, by leaving the
program. -/
theorem opcode_of_action_halt (h : i.action = .ok .halt) : i.opcode = .halt := by
  unfold Instr.action at h
  split at h <;> cases h
  assumption

/-- What executing an instruction can change: only a jump touches the counter, and then the
counter is the target of the jump; only the end of a program halts the machine. Proofs about runs
use this instead of going through the actions. -/
theorem execute_cases (h : m.execute i = .ok next) :
    (∃ e, next = { m with environment := e }) ∨
      (i.opcode = .jump ∧ next = { m with counter := i.target }) ∨
      (i.opcode = .halt ∧ next = { m with halted := true }) := by
  obtain ⟨action, haction, h⟩ := bind_eq_ok h
  rcases perform_cases h with kept | ⟨condition, left, right, target, rfl, rfl⟩ | ⟨rfl, rfl⟩
  · exact Or.inl kept
  · obtain ⟨hjump, rfl⟩ := opcode_of_action_jump haction
    exact Or.inr (Or.inl ⟨hjump, rfl⟩)
  · exact Or.inr (Or.inr ⟨opcode_of_action_halt haction, rfl⟩)

/-! ### The phase and the counter -/

/-- The counter and the loaded instruction belong to the phase. While an instruction is in
progress, it is the one at `lastAddress`; the counter is still there before it moves on and one
further after that. A machine halts only between two instructions. -/
structure InCycle (m : Machine) : Prop where
  loaded : m.phase ≠ .fetch → ∃ i, m.program[m.lastAddress]? = some i ∧ m.loaded = some i
  latch : m.phase = .latch → m.counter = some (m.lastAddress : Int)
  execute : m.phase = .execute → m.counter = some (m.lastAddress + 1 : Int)
  halted : m.halted = true → m.phase = .fetch

/-- Sensor events do not touch the instruction in progress, so a tick that fails leaves the
machine in its cycle. -/
theorem InCycle.sense (h : InCycle m) : InCycle m.sense :=
  ⟨h.loaded, h.latch, h.execute, h.halted⟩

/-- A machine that is about to fetch is in its cycle: no instruction is in progress, so there is
nothing to tie together. -/
theorem InCycle.of_fetch (h : m.phase = .fetch) : InCycle m := by
  refine ⟨fun hne => absurd h hne, fun hlatch => ?_, fun hexecute => ?_, fun _ => h⟩
  · rw [h] at hlatch
    cases hlatch
  · rw [h] at hexecute
    cases hexecute

/-- A machine fetches, or it fails or halts where it stands. It fails if its counter was never
set, and it halts if the counter is not an address of the program. -/
theorem tick_of_fetch (running : m.halted = false) (hphase : m.phase = .fetch) :
    (m.counter = none ∧ m.tick = (m.sense, some .unsetCounter)) ∨
      (∃ address : Int, m.counter = some address ∧
        (address < 0 ∨ m.program[address.toNat]? = none) ∧
        m.tick = ({ m.sense with halted := true, ticks := m.ticks + 1 }, none)) ∨
      (∃ (a : Nat) (i : Instr), m.counter = some (a : Int) ∧ m.program[a]? = some i ∧
        m.tick = (m.fetched a i, none)) := by
  cases hcounter : m.counter with
  | none =>
    refine Or.inl ⟨rfl, tick_refused running ?_⟩
    simp only [phaseStep, Machine.sense, hphase, fetch, hcounter]
  | some address =>
    by_cases inside : 0 ≤ address ∧ (m.program[address.toNat]?).isSome
    · obtain ⟨i, hi⟩ := Option.isSome_iff_exists.mp inside.2
      have hnat : (address.toNat : Int) = address := Int.toNat_of_nonneg inside.1
      exact Or.inr (Or.inr ⟨address.toNat, i, by rw [hnat], hi,
        tick_fetch running hphase (by rw [hcounter, hnat]) hi⟩)
    · -- A counter that has left the program may be on either side of it.
      have outside : address < 0 ∨ m.program[address.toNat]? = none := by
        by_cases hneg : address < 0
        · exact Or.inl hneg
        · refine Or.inr (Option.not_isSome_iff_eq_none.mp fun some => inside ⟨by omega, some⟩)
      refine Or.inr (Or.inl ⟨address, rfl, outside, ?_⟩)
      have step : m.sense.phaseStep = .ok { m.sense with halted := true } := by
        simp only [phaseStep, Machine.sense, hphase, fetch, hcounter]
        rcases outside with hneg | hnone
        · rw [if_pos hneg]
        · simp only [hnone, ite_self]
      rw [tick_of_ok running step]
      rfl

/-- A tick keeps the machine in its cycle, whether it succeeds or not. The cases are the phases,
and within a phase the ways that it can end. -/
theorem InCycle.tick (h : InCycle m) : InCycle m.tick.1 := by
  cases running : m.halted with
  | true =>
    rw [tick_of_halted running]
    exact h
  | false =>
    cases hphase : m.phase with
    | fetch =>
      rcases tick_of_fetch running hphase with
        ⟨-, htick⟩ | ⟨address, -, -, htick⟩ | ⟨a, i, hcounter, hi, htick⟩
      · rw [htick]
        exact h.sense
      · rw [htick]
        exact .of_fetch hphase
      · rw [htick]
        exact ⟨fun _ => ⟨i, hi, rfl⟩, fun _ => hcounter, nofun, fun halts => by
          rw [show m.halted = true from halts] at running
          cases running⟩
    -- The counter was at the address of the loaded instruction and is one further now.
    | latch =>
      rw [tick_latch running hphase]
      refine ⟨fun _ => h.loaded (by simp [hphase]), nofun, fun _ => ?_, fun halts => ?_⟩
      · show m.counter.map (· + 1) = _
        rw [h.latch hphase]
        rfl
      · rw [show m.halted = true from halts] at running
        cases running
    | execute =>
      obtain ⟨i, -, hloaded⟩ := h.loaded (by simp [hphase])
      cases hexecute : m.sense.execute i with
      | ok next =>
        rw [tick_execute running hphase hloaded hexecute]
        exact .of_fetch rfl
      | error fault =>
        rw [tick_execute_error running hphase hloaded hexecute]
        exact h.sense

/-- What a tick of a running machine comes to: it fails and changes only the sensors, it leaves
the program and halts, or it takes one of the three steps of an instruction. Invariants of a run
are proved by cases over this. -/
inductive Ticked (m : Machine) : Machine × Option Fault → Prop where
  | refused (fault : Fault) : Ticked m (m.sense, some fault)
  | left (hphase : m.phase = .fetch) :
      Ticked m ({ m.sense with halted := true, ticks := m.ticks + 1 }, none)
  | fetched (a : Nat) (i : Instr) (hphase : m.phase = .fetch)
      (hcounter : m.counter = some (a : Int))
      (hi : m.program[a]? = some i) : Ticked m (m.fetched a i, none)
  | latched (hphase : m.phase = .latch) : Ticked m (m.latched, none)
  | executed (i : Instr) (next : Machine) (hphase : m.phase = .execute)
      (hi : m.program[m.lastAddress]? = some i) (hexecute : m.sense.execute i = .ok next) :
      Ticked m (next.counted, none)

/-- A tick of a machine in its cycle is one of these. That the machine is in its cycle is needed
for the last case: the loaded instruction is the one of the program. -/
theorem InCycle.ticked (h : InCycle m) (running : m.halted = false) : Ticked m m.tick := by
  cases hphase : m.phase with
  | fetch =>
    rcases tick_of_fetch running hphase with
      ⟨-, htick⟩ | ⟨address, -, -, htick⟩ | ⟨a, i, hcounter, hi, htick⟩
    · rw [htick]
      exact .refused _
    · rw [htick]
      exact .left hphase
    · rw [htick]
      exact .fetched a i hphase hcounter hi
  | latch =>
    rw [tick_latch running hphase]
    exact .latched hphase
  | execute =>
    obtain ⟨i, hi, hloaded⟩ := h.loaded (by simp [hphase])
    cases hexecute : m.sense.execute i with
    | ok next =>
      rw [tick_execute running hphase hloaded hexecute]
      exact .executed i next hphase hi hexecute
    | error fault =>
      rw [tick_execute_error running hphase hloaded hexecute]
      exact .refused fault

/-- The machine after a number of ticks. It is asked again also after a tick that failed, so this
is defined for runs that have ended in a fault as well. -/
def after : Nat → Machine → Machine
  | 0, m => m
  | n + 1, m => (after n m).tick.1

/-- What every tick keeps holds after any number of ticks. An invariant over a whole history is
obtained from its step with this. -/
theorem after_induction {P : Machine → Prop} (start : P m)
    (step : ∀ m : Machine, P m → P m.tick.1) (n : Nat) : P (m.after n) := by
  induction n with
  | zero => exact start
  | succ n ih => exact step _ ih

/-- A machine is in its cycle from the start, over any program and any schedule. The program need
not come from a source, and its jumps may go anywhere. -/
theorem inCycle_after (program : List Instr) (schedule : List SensorEvent) (n : Nat) :
    InCycle ((start program schedule).after n) :=
  after_induction (.of_fetch rfl) (fun _ => InCycle.tick) n

/-! ### Runs -/

/-- A halted machine stays where it is, and the run ends without a fault. -/
theorem runFor_of_halted (h : m.halted = true) (n : Nat) : m.runFor n = (m, none) := by
  cases n with
  | zero => rfl
  | succ n => rw [runFor, if_pos h]

/-- A run of `n + k` ticks is one of `n` ticks and, unless that ended with a fault, one of `k`
more. Runs are cut at instructions with this, and put together again. -/
theorem runFor_add (n k : Nat) (m : Machine) :
    m.runFor (n + k) =
      match m.runFor n with
      | (reached, none) => reached.runFor k
      | (reached, some fault) => (reached, some fault) := by
  -- A halted machine is left alone on both sides, so only ticks of a running one are counted off.
  induction n generalizing m with
  | zero => rw [Nat.zero_add]; rfl
  | succ n ih =>
    rw [Nat.add_right_comm]
    cases running : m.halted with
    | true => simp only [runFor_of_halted running]
    | false =>
      simp only [runFor, running, Bool.false_eq_true, if_false]
      cases htick : m.tick with
      | mk next outcome =>
        cases outcome with
        | none => exact ih next
        | some fault => rfl

/-- A run that has come to its end: it halted or failed. In either case more ticks would change
nothing. -/
def Final (result : Machine × Option Fault) : Prop :=
  result.1.halted = true ∨ result.2 ≠ none

/-- More ticks do not change how a run has ended. A halted machine is left alone, and a fault ends
the run. -/
theorem runFor_of_final {n : Nat} {result : Machine × Option Fault} (h : m.runFor n = result)
    (final : Final result) (k : Nat) : m.runFor (n + k) = result := by
  obtain ⟨reached, outcome⟩ := result
  rw [runFor_add, h]
  cases outcome with
  | some fault => rfl
  | none =>
    rcases final with halted | hne
    · exact runFor_of_halted halted k
    · exact absurd rfl hne

/-- A machine ends in one way only, whatever the limits are under which it was run. -/
theorem final_unique {n k : Nat} (hn : Final (m.runFor n)) (hk : Final (m.runFor k)) :
    m.runFor n = m.runFor k := by
  -- Both are the run of `n + k` ticks.
  have long := runFor_of_final rfl hn k
  rw [Nat.add_comm, runFor_of_final rfl hk n] at long
  exact long.symm

/-- A run that goes on where another one stopped. This is `runFor_add` for a first part without a
fault. -/
theorem runFor_trans {n k : Nat} {reached : Machine} (h : m.runFor n = (reached, none)) :
    m.runFor (n + k) = reached.runFor k := by
  rw [runFor_add, h]

/-- A tick that succeeds starts a run, and what is left of the limit is for the rest. -/
theorem runFor_succ {n : Nat} (running : m.halted = false) (h : m.tick = (next, none)) :
    m.runFor (n + 1) = next.runFor n := by
  rw [runFor, if_neg (by simp [running]), h]

/-- The sensors after the events of the next `n` ticks. Three of them pass until an instruction is
executed, and each of them has its own events. -/
def readingsAhead (m : Machine) : Nat → Readings
  | 0 => m.environment.readings
  | n + 1 => (m.readingsAhead n).advance m.schedule (m.ticks + n : Nat)

/-- The machine at the moment it executes the instruction at `a`, two ticks after it fetched it:
the counter has moved on, and the sensor events of all three ticks have happened. -/
def prepared (m : Machine) (a : Nat) (i : Instr) : Machine :=
  { m with
    environment := { m.environment with readings := m.readingsAhead 3 }
    counter := some ((a : Int) + 1)
    loaded := some i
    lastAddress := a
    phase := .execute
    ticks := m.ticks + 2 }

/-- Fetching an instruction and moving the counter on takes two ticks. What remains of the third
are its sensor events and the execution. -/
theorem exists_runFor_two {a : Nat} (running : m.halted = false) (hphase : m.phase = .fetch)
    (hcounter : m.counter = some (a : Int)) (hi : m.program[a]? = some i) :
    ∃ ready : Machine, m.runFor 2 = (ready, none) ∧ ready.halted = false ∧
      ready.phase = .execute ∧ ready.loaded = some i ∧ ready.sense = m.prepared a i := by
  refine ⟨(m.fetched a i).latched, ?_, running, rfl, rfl, ?_⟩
  · rw [runFor_succ running (tick_fetch running hphase hcounter hi),
      runFor_succ (m := m.fetched a i) running (tick_latch running rfl)]
    rfl
  · simp only [sense, latched, fetched, prepared, readingsAhead, hcounter]
    rfl

/-- The three ticks of an instruction that succeeds. All proofs about what code does start from
this equation, and do not look at single ticks. -/
theorem runFor_cycle {a : Nat} (running : m.halted = false) (hphase : m.phase = .fetch)
    (hcounter : m.counter = some (a : Int)) (hi : m.program[a]? = some i)
    (h : (m.prepared a i).execute i = .ok next) : m.runFor 3 = (next.counted, none) := by
  obtain ⟨ready, hready, hrunning, hexecute, hloaded, hsense⟩ :=
    exists_runFor_two running hphase hcounter hi
  rw [runFor_trans (n := 2) (k := 1) hready,
    runFor_succ hrunning (tick_execute hrunning hexecute hloaded (by rw [hsense]; exact h))]
  rfl

/-- The three ticks of an instruction that fails. The machine is left as it was prepared, with the
sensors of the third tick. -/
theorem runFor_cycle_error {a : Nat} (running : m.halted = false) (hphase : m.phase = .fetch)
    (hcounter : m.counter = some (a : Int)) (hi : m.program[a]? = some i)
    (h : (m.prepared a i).execute i = .error fault) :
    m.runFor 3 = (m.prepared a i, some fault) := by
  obtain ⟨ready, hready, hrunning, hexecute, hloaded, hsense⟩ :=
    exists_runFor_two running hphase hcounter hi
  rw [runFor_trans (n := 2) (k := 1) hready, runFor, if_neg (by simp [hrunning]),
    tick_execute_error hrunning hexecute hloaded (by rw [hsense]; exact h), hsense]

end Machine

end Tickscript
