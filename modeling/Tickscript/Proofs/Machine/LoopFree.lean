import Mathlib
import Tickscript.Proofs.Generator.Forward
import Tickscript.Proofs.Machine.Safety
import Tickscript.Proofs.Machine.TickLimit

/-!
# `Tickscript.Proofs.Machine.LoopFree`: programs without loops halt

Where all jumps go forward, a machine never comes back to an instruction. `Paced` ties a running
machine to the address it is at: it has executed no more instructions than there are before that
address, and its clock shows three ticks for each of them. A tick keeps the pace, and if it
executes an instruction the address grows, unless it fails or the instruction was the end of the
program (`Paced.moves`).

From this follow the two results. The addresses of the instructions that a run executes grow
strictly (`Paced.sorted_addressesFor`). And a machine that is still running is at an address of
the program, so its clock is short of three ticks for each instruction of the program; a limit
that leaves so many ticks is never reached.
-/

set_option autoImplicit false

namespace Tickscript

namespace Machine

variable {m next : Machine} {code : List Instr} {a : Nat}

/-! ### The addresses of a run -/

/-- The address of the instruction that the next tick executes, if it executes one. It is a list
of at most one address, so that addresses of ticks can be put together. -/
def executing (m : Machine) : List Nat :=
  if m.phase = .execute then [m.lastAddress] else []

/-- The addresses of the instructions that a run of at most `count` ticks executes, in their
order. An instruction that fails is the last of them. -/
def addressesFor : Nat → Machine → List Nat
  | 0, _ => []
  | count + 1, m =>
    if m.halted then []
    else
      match m.tick with
      | (next, none) => m.executing ++ addressesFor count next
      | (_, some _) => m.executing

/-- The addresses of the instructions that a run with a limit executes, counted as `Machine.run`
counts its ticks. -/
def addresses (limit : Int) (m : Machine) : List Nat :=
  addressesFor (limit - m.ticks).toNat m

/-- A halted machine executes nothing more. -/
theorem addressesFor_of_halted (h : m.halted = true) (n : Nat) : m.addressesFor n = [] := by
  cases n with
  | zero => rfl
  | succ n => rw [addressesFor, if_pos h]

/-- A tick that succeeds puts its address in front of those of the rest. -/
theorem addressesFor_succ (running : m.halted = false) (htick : m.tick = (next, none)) (n : Nat) :
    m.addressesFor (n + 1) = m.executing ++ next.addressesFor n := by
  rw [addressesFor, if_neg (by simp [running]), htick]

/-- A tick that fails ends the list. The instruction that failed is in it, if the tick had come to
execute one. -/
theorem addressesFor_refused {left : Machine} {fault : Fault} (running : m.halted = false)
    (htick : m.tick = (left, some fault)) (n : Nat) : m.addressesFor (n + 1) = m.executing := by
  rw [addressesFor, if_neg (by simp [running]), htick]

/-- A tick that succeeds counts an instruction exactly if it executes one. Fetching and moving the
counter on do not count. -/
theorem Ticked.executed_eq (ticked : Ticked m (next, none)) :
    next.executed = m.executed + m.executing.length := by
  cases ticked with
  | left hphase => simp [executing, hphase, Machine.sense]
  | fetched a i hphase hcounter hi => simp [executing, hphase, Machine.fetched, Machine.sense]
  | latched hphase => simp [executing, hphase, Machine.latched, Machine.sense]
  | executed i next hphase hi hexecute =>
    have same : next.executed = m.executed := by
      rcases execute_cases hexecute with ⟨e, rfl⟩ | ⟨-, rfl⟩ | ⟨-, rfl⟩ <;> rfl
    simp [executing, hphase, Machine.counted, same]

/-- Over any program, a run without a fault has counted the instructions whose addresses are
listed. So the list leaves nothing out. -/
theorem InCycle.executed_runFor (h : InCycle m) (n : Nat) (succeeded : (m.runFor n).2 = none) :
    (m.runFor n).1.executed = m.executed + (m.addressesFor n).length := by
  induction n generalizing m with
  | zero => rfl
  | succ n ih =>
    cases running : m.halted with
    | true =>
      rw [runFor_of_halted running, addressesFor_of_halted running]
      rfl
    | false =>
      cases htick : m.tick with
      | mk next outcome =>
        cases outcome with
        | none =>
          have own := Ticked.executed_eq (htick ▸ h.ticked running)
          rw [runFor_succ running htick] at succeeded ⊢
          rw [ih (h.of_tick running htick).1 succeeded, own, addressesFor_succ running htick,
            List.length_append, Nat.add_assoc]
        | some fault =>
          simp [runFor, running, htick] at succeeded

/-! ### The pace of a machine -/

/-- A running machine over `code` is at the address `a`, where it fetches or executes an
instruction, and all that it has executed stood before.

- `place`: while an instruction is in progress it is the one at `a`, else it is fetched next;
- `pace`: each instruction that was executed had an address of its own below `a`;
- `clock`: an instruction takes three ticks. -/
structure Paced (code : List Instr) (m : Machine) (a : Nat) : Prop where
  inside : Inside code m
  running : m.halted = false
  place : if m.phase = .fetch then m.counter = some (a : Int) else m.lastAddress = a
  lt : a < code.length
  pace : m.executed ≤ a
  clock : m.ticks = 3 * m.executed + m.phase.offset

/-- A machine has executed the end of `code`, its last instruction, and has halted there. It has
executed no more instructions than there are. The clock tells that no tick was lost. -/
structure Ended (code : List Instr) (m : Machine) : Prop where
  halted : m.halted = true
  loaded : m.loaded = some (.plain .halt [])
  lastAddress : m.lastAddress + 1 = code.length
  executed : m.executed ≤ code.length
  clock : m.ticks = 3 * m.executed

/-- What a tick of a machine at the address `a` comes to:

- `refused`: it fails;
- `waits`: it is one of the first two ticks of an instruction, and the machine stays at `a`;
- `goes`: it executes an instruction, and the machine is further on;
- `ends`: it executes the end of the program. -/
inductive Moves (code : List Instr) (m : Machine) (a : Nat) : Machine × Option Fault → Prop where
  | refused (left : Machine) (fault : Fault) : Moves code m a (left, some fault)
  | waits (next : Machine) (idle : m.phase ≠ .execute) (paced : Paced code next a) :
      Moves code m a (next, none)
  | goes (next : Machine) (b : Nat) (executes : m.phase = .execute) (ahead : a < b)
      (paced : Paced code next b) : Moves code m a (next, none)
  | ends (next : Machine) (executes : m.phase = .execute) (ended : Ended code next) :
      Moves code m a (next, none)

/-- A machine at the start of a finished program is at its first instruction, and there is one:
the end of the program at least. -/
theorem paced_start (finished : Finished .standard code) (schedule : List SensorEvent) :
    Paced code (start code schedule) 0 := by
  have inside := inside_start finished schedule
  obtain ⟨b, -, hlt⟩ := inside.fetch rfl rfl
  exact ⟨inside, rfl, rfl, by omega, Nat.le_refl 0, rfl⟩

/-- An instruction in progress is the one that the machine is at. -/
theorem Paced.lastAddress_eq (h : Paced code m a) (hphase : m.phase ≠ .fetch) :
    m.lastAddress = a := by
  have place := h.place
  rwa [if_neg hphase] at place

/-- The address that the next tick adds to the list is the one that the machine is at. -/
theorem Paced.executing_eq (h : Paced code m a) (executes : m.phase = .execute) :
    m.executing = [a] := by
  rw [executing, if_pos executes, h.lastAddress_eq (by simp [executes])]

/-- An instruction that leaves the machine running has taken it to a later address: to the next
one, or to the target of a jump, which goes forward. -/
theorem Paced.of_execute (forward : Forward code) (h : Paced code m a)
    (hphase : m.phase = .execute) {i : Instr} (hi : m.program[m.lastAddress]? = some i)
    (hexecute : m.sense.execute i = .ok next) (runs : next.halted = false)
    (inside : Inside code next.counted) :
    ∃ b, a < b ∧ Paced code next.counted b := by
  obtain ⟨b, hcounter, hlt⟩ := inside.fetch runs rfl
  have hlast : m.lastAddress = a := h.lastAddress_eq (by simp [hphase])
  have hnext : next.counter = some (b : Int) := hcounter
  have kept : next.executed = m.executed ∧ next.ticks = m.ticks := by
    rcases execute_cases hexecute with ⟨e, rfl⟩ | ⟨-, rfl⟩ | ⟨-, rfl⟩ <;> exact ⟨rfl, rfl⟩
  have ahead : a < b := by
    rcases execute_cases hexecute with ⟨e, rfl⟩ | ⟨-, rfl⟩ | ⟨-, rfl⟩
    · -- The counter has moved on by one, to the instruction behind this one.
      have moved : m.counter = some (m.lastAddress + 1 : Int) := h.inside.cycle.execute hphase
      have same : some (m.lastAddress + 1 : Int) = some (b : Int) := moved.symm.trans hnext
      have := Option.some.inj same
      omega
    · -- The counter is the target of a jump.
      rw [h.inside.program, List.getElem?_toArray, hlast] at hi
      exact forward a i hi b hnext
    · cases runs
  have pace := h.pace
  have clock := h.clock
  rw [hphase] at clock
  refine ⟨b, ahead, inside, runs, hcounter, hlt, ?_, ?_⟩
  · show next.executed + 1 ≤ b
    omega
  · show next.ticks + 1 = 3 * (next.executed + 1) + 0
    simp only [Phase.offset] at clock
    omega

/-- **A tick keeps the pace.** It fails, or it takes the machine on without executing anything, or
it executes an instruction and the machine is at a later one, or it executes the end of the
program. -/
theorem Paced.moves (finished : Finished .standard code) (forward : Forward code)
    (h : Paced code m a) :
    Moves code m a m.tick := by
  have pace := h.pace
  have clock := h.clock
  rcases h.inside.tick_cases finished h.running with
    ⟨i, fault, -, -, -, htick⟩ | ⟨hphase, hloaded, hlast, -⟩ | ⟨succeeded, runs, inside⟩
  · rw [htick]
    exact .refused _ fault
  · -- Executing the end does nothing but halt.
    have hplace := h.lastAddress_eq (by simp [hphase])
    rw [hphase] at clock
    simp only [Phase.offset] at clock
    rw [tick_execute h.running hphase hloaded (rfl : m.sense.execute (.plain .halt []) = .ok _)]
    refine .ends _ hphase ⟨rfl, hloaded, hlast, ?_, ?_⟩
    · show m.executed + 1 ≤ code.length
      omega
    · show m.ticks + 1 = 3 * (m.executed + 1)
      omega
  · generalize hticked : m.tick = ticked at succeeded runs inside
    have ways := h.inside.cycle.ticked h.running
    rw [hticked] at ways
    cases ways with
    | refused fault => cases succeeded
    | left hphase => cases runs
    -- The instruction that is fetched is the one at the counter, so the place stays.
    | fetched b i hphase hcounter hi =>
      have place := h.place
      rw [if_pos hphase, hcounter] at place
      have hb : b = a := by
        have := Option.some.inj place
        omega
      rw [hphase] at clock
      refine .waits _ (by simp [hphase]) ⟨inside, runs, hb, h.lt, pace, ?_⟩
      show m.ticks + 1 = 3 * m.executed + 1
      exact congrArg (· + 1) clock
    | latched hphase =>
      have hlast := h.lastAddress_eq (by simp [hphase])
      rw [hphase] at clock
      refine .waits _ (by simp [hphase]) ⟨inside, runs, hlast, h.lt, pace, ?_⟩
      show m.ticks + 1 = 3 * m.executed + 2
      exact congrArg (· + 1) clock
    | executed i next hphase hi hexecute =>
      obtain ⟨b, ahead, paced⟩ := h.of_execute forward hphase hi hexecute runs inside
      exact .goes _ b hphase ahead paced

/-! ### Runs -/

/-- The addresses of a run grow strictly, from the address that the machine is at. The induction
is on the ticks, with the address as it goes on. -/
theorem Paced.sorted_addressesFor (finished : Finished .standard code) (forward : Forward code)
    (h : Paced code m a) (n : Nat) :
    (m.addressesFor n).Pairwise (· < ·) ∧ ∀ b ∈ m.addressesFor n, a ≤ b ∧ b < code.length := by
  induction n generalizing m a with
  | zero => exact ⟨.nil, fun b hb => by cases hb⟩
  | succ n ih =>
    generalize htick : m.tick = ticked
    have ways := h.moves finished forward
    rw [htick] at ways
    cases ways with
    -- The address of an instruction that fails is listed, and nothing comes behind it.
    | refused left fault =>
      rw [addressesFor_refused h.running htick]
      by_cases executes : m.phase = .execute
      · rw [h.executing_eq executes]
        exact ⟨List.pairwise_singleton _ _, by simpa using h.lt⟩
      · rw [executing, if_neg executes]
        exact ⟨.nil, fun b hb => by cases hb⟩
    | waits next idle paced =>
      rw [addressesFor_succ h.running htick, executing, if_neg idle, List.nil_append]
      exact ih paced
    | goes next b executes ahead paced =>
      obtain ⟨sorted, within⟩ := ih paced
      rw [addressesFor_succ h.running htick, h.executing_eq executes]
      -- What follows is at `b` or later, so behind `a`.
      refine ⟨List.pairwise_cons.mpr ⟨fun c hc => ?_, sorted⟩, ?_⟩
      · exact Nat.lt_of_lt_of_le ahead (within c hc).1
      · intro c hc
        rcases List.mem_cons.mp hc with rfl | hc
        · exact ⟨Nat.le_refl c, h.lt⟩
        · exact ⟨Nat.le_trans (Nat.le_of_lt ahead) (within c hc).1, (within c hc).2⟩
    | ends next executes ended =>
      rw [addressesFor_succ h.running htick, h.executing_eq executes,
        addressesFor_of_halted ended.halted]
      exact ⟨List.pairwise_singleton _ _, by simpa using h.lt⟩

/-- A run without a fault leaves a machine that keeps the pace or has ended. There is no third
way: it cannot leave the program. -/
theorem Paced.runFor (finished : Finished .standard code) (forward : Forward code)
    (h : Paced code m a) (n : Nat) (succeeded : (m.runFor n).2 = none) :
    (∃ b, Paced code (m.runFor n).1 b) ∨ Ended code (m.runFor n).1 := by
  induction n generalizing m a with
  | zero => exact Or.inl ⟨a, h⟩
  | succ n ih =>
    generalize htick : m.tick = ticked
    have ways := h.moves finished forward
    rw [htick] at ways
    cases ways with
    | refused left fault => simp [Machine.runFor, h.running, htick] at succeeded
    | waits next idle paced =>
      rw [runFor_succ h.running htick] at succeeded ⊢
      exact ih paced succeeded
    | goes next b executes ahead paced =>
      rw [runFor_succ h.running htick] at succeeded ⊢
      exact ih paced succeeded
    | ends next executes ended =>
      rw [runFor_succ h.running htick, runFor_of_halted ended.halted]
      exact Or.inr ended

/-- A run with three ticks for each instruction of the program ends, unless a tick fails. It
cannot use them up, because it executes no instruction twice. -/
theorem Paced.ended_run (finished : Finished .standard code) (forward : Forward code)
    (h : Paced code m a) {limit : Int} (enough : 3 * (code.length : Int) ≤ limit)
    (succeeded : (m.run limit).2 = none) :
    Ended code (m.run limit).1 := by
  rcases h.runFor finished forward _ succeeded with ⟨b, paced⟩ | ended
  · -- A machine that still runs has stopped at the limit, but its clock is short of it.
    exfalso
    have stopped := (h.inside.cycle.loops_run limit).halted_or_expired h.inside.cycle succeeded
    have running : (m.run limit).1.halted = false := paced.running
    have clock : (m.run limit).1.ticks = 3 * (m.run limit).1.executed +
        (m.run limit).1.phase.offset :=
      paced.clock
    have pace : (m.run limit).1.executed ≤ b := paced.pace
    have room := paced.lt
    have := (m.run limit).1.phase.offset_le_two
    rcases stopped with halted | expired
    · rw [running] at halted
      cases halted
    · have := le_max_right (m.ticks : Int) limit
      omega
  · exact ended

/-- **Programs without loops halt.** Let a source text compile, and let none of its statements
start with `for`. Whatever the schedule and the limit, a run on its code executes instructions at
strictly growing addresses of the code, so each of them at most once, and it counts them all
unless a tick fails. If the limit leaves three ticks for each instruction and no tick fails, the
run ends at the end of the program. -/
theorem halts_of_loopFree {source : String} {statements : List (List Token)} {code : List Instr}
    (read : Token.parse .standard source = .ok statements)
    (loopFree : ∀ tokens ∈ statements, startsLoop tokens = false)
    (compiled : (compileCode .standard .standard source).result = .ok code)
    (schedule : List SensorEvent) (limit : Int) :
    let m := start code schedule
    (m.addresses limit).Pairwise (· < ·) ∧ (m.addresses limit).Nodup ∧
      (∀ b ∈ m.addresses limit, b < code.length) ∧
      ((m.run limit).2 = none → (m.run limit).1.executed = (m.addresses limit).length) ∧
      (3 * (code.length : Int) ≤ limit → (m.run limit).2 = none →
        Ended code (m.run limit).1) := by
  intro m
  obtain ⟨found, hparse, hnone, rfl⟩ := generate_of_compileCode compiled
  rw [read] at hparse
  cases hparse
  have finished := finished_of_generate hnone
  have forward := forward_of_generate hnone loopFree
  have paced : Paced _ m 0 := paced_start finished schedule
  obtain ⟨sorted, within⟩ := paced.sorted_addressesFor finished forward (limit - m.ticks).toNat
  refine ⟨sorted, sorted.imp Nat.ne_of_lt, fun b hb => (within b hb).2, ?_, ?_⟩
  · intro succeeded
    have counted := paced.inside.cycle.executed_runFor _ succeeded
    exact counted.trans (Nat.zero_add _)
  · intro enough succeeded
    exact paced.ended_run finished forward enough succeeded

/-- Two conditionals, the inner one with nothing inside. Both jump over what they can, and the run
takes twelve of the eighteen ticks. -/
theorem halts_of_nested_conditionals :
    let source := "if a<1;if b<2;endif x=3;endif"
    let code : List Instr :=
      [.jumpTo 2 ["lessThan", "a", "1"], .jumpTo 5 ["always"], .jumpTo 4 ["lessThan", "b", "2"],
        .jumpTo 4 ["always"], .plain .set ["x", "3"], .plain .halt []]
    let m := start code [⟨3, "tank", "level", .int 7⟩]
    (compileCode .standard .standard source).result = .ok code ∧ (m.run 18).2 = none ∧
      m.addresses 18 = [0, 2, 4, 5] ∧ (m.addresses 18).Pairwise (· < ·) ∧
      Ended code (m.run 18).1 := by
  intro source code m
  have read : Token.parse .standard source = .ok
      [[⟨.keyword, "if", 1⟩, ⟨.name, "a", 1⟩, ⟨.operator, "<", 1⟩, ⟨.value, "1", 1⟩],
        [⟨.keyword, "if", 1⟩, ⟨.name, "b", 1⟩, ⟨.operator, "<", 1⟩, ⟨.value, "2", 1⟩],
        [⟨.keyword, "endif", 1⟩], [⟨.name, "x", 1⟩, ⟨.operator, "=", 1⟩, ⟨.value, "3", 1⟩],
        [⟨.keyword, "endif", 1⟩]] :=
    eq_ok_of_toOption (by decide +kernel)
  have compiled : (compileCode .standard .standard source).result = .ok code := by
    rw [compileCode, read]
    rfl
  have succeeded : (m.run 18).2 = none := by decide +kernel
  obtain ⟨sorted, -, -, -, ended⟩ := halts_of_loopFree read (by decide) compiled _ 18
  exact ⟨compiled, succeeded, by decide +kernel, sorted, ended (by decide) succeeded⟩

end Machine

end Tickscript
