import Mathlib
import Tickscript.Compile
import Tickscript.Proofs.Generator.Targets
import Tickscript.Proofs.Machine.Cycle
import Tickscript.Proofs.Numeral.Limits
import Tickscript.Proofs.Value.Operations

/-!
# `Tickscript.Proofs.Machine.Safety`: compiled programs do not go wrong

The machine accepts any list of instructions and may find each of them faulty. The code of a
compiled program is `Finished`: its instructions have the forms of `Instr.Fits` and its last one
is the end. On such code the machine never leaves the program (`Inside`, kept by every tick), it
halts only at the end, and an instruction fails only for one of the reasons in `Excused`.

Blocks that cross are no exception. All that matters here is that jumps have targets within the
program, which `Targets` gives for any program that the generator accepts.
-/

set_option autoImplicit false

namespace Tickscript

open Tickscript.Numeral

/-- Code that a generator has finished: instructions of known forms whose targets do not lie
behind the end, and then the end. Nothing is said about where the jumps go, apart from this
bound. -/
def Finished (m : Mnemonics) (code : List Instr) : Prop :=
  ∃ body, code = body ++ [.plain .halt []] ∧ ∀ i ∈ body, i.Fits m body.length

/-- The code of a program that the generator accepts is finished. This is what the theory of
layouts amounts to for a machine. -/
theorem finished_of_generate {m : Mnemonics} {statements : List (List Token)}
    (h : (Generator.generate m {} statements).2 = none) :
    Finished m (Generator.generate m {} statements).1.code := by
  obtain ⟨ss, g, -, laid, all_taken, hgenerate⟩ := laid_of_generate h
  have balanced : Balanced ss := ⟨all_taken, laid.closers⟩
  refine ⟨body m ss, by rw [hgenerate, Generator.append, laid.code], ?_⟩
  rw [length_body]
  exact balanced.fits_of_mem_body laid.supported

/-- A source text that compiles has been read as tokens that the generator accepts. So what is
known of the generator is known of whole sources. -/
theorem generate_of_compileCode {v : Vocabulary} {m : Mnemonics} {source : String}
    {code : List Instr} (h : (compileCode v m source).result = .ok code) :
    ∃ statements, Token.parse v source = .ok statements ∧
      (Generator.generate m {} statements).2 = none ∧
      (Generator.generate m {} statements).1.code = code := by
  unfold compileCode at h
  split at h
  · rename_i statements hparse
    refine ⟨statements, hparse, ?_⟩
    unfold compileTokens at h
    split at h
    · rename_i g hgenerate
      cases h
      rw [hgenerate]
      exact ⟨rfl, rfl⟩
    · cases h
  · cases h

/-- A fault of a machine in the environment `e` that executes an instruction, if there is nothing
wrong with the instruction itself:

- `arithmetic`: one of the four operations has operands or a result that no floating point number
  holds;
- `literal`: an argument is a whole number with too many digits;
- `print`: the value to be printed is an integer with too many digits. -/
inductive Excused (e : Environment) : Instr → Fault → Prop where
  | arithmetic (word dest left right : String) (a b : Value) (fault : ArithmeticFault)
      (arithmetical : word ∈ arithmeticWords) (hleft : e.read left = .ok a)
      (hright : e.read right = .ok b)
      (refused : Value.compute word a b = .error (.arithmetic fault)) :
      Excused e (.plain .op [word, dest, left, right]) (.arithmetic fault)
  | literal (i : Instr) (arg : String) (digits : Nat) (used : arg ∈ i.args)
      (whole : NumeralShape.of? arg.toList = some .whole) (long : digitLimit < digits)
      (refused : readInteger arg = .error (.tooLong digits)) :
      Excused e i (.numeral (.tooLong digits))
  | print (source : String) (n : Int) (hsource : e.read source = .ok (.int n))
      (long : Nat.pow 10 digitLimit ≤ n.natAbs) :
      Excused e (.plain .print [source]) (.numeral .tooLongToWrite)

namespace Machine

variable {m next : Machine} {i : Instr} {fault : Fault} {code : List Instr}

/-! ### What can fail -/

/-- An argument of an instruction that cannot be read is an excuse: it is a whole number with too
many digits, and nothing else can be wrong with an argument. -/
theorem excused_of_read {e : Environment} {arg : String} (used : arg ∈ i.args)
    (h : e.read arg = .error fault) : Excused e i fault := by
  unfold Environment.read at h
  cases hread : Value.ofOperand e.store arg with
  | ok value =>
    rw [hread] at h
    cases h
  | error numeral =>
    rw [hread] at h
    cases h
    obtain ⟨whole, digits, long, refused, rfl⟩ := ofOperand_eq_error hread
    exact .literal i arg digits used whole long refused

/-- A value that cannot be printed is an excuse: it is an integer with too many digits, which a
program can compute although no source could write it. -/
theorem excused_of_print {e : Environment} {source : String} {value : Value}
    (hsource : e.read source = .ok value) (h : e.print value = .error fault) :
    Excused e (.plain .print [source]) fault := by
  unfold Environment.print at h
  split at h
  · cases h
  · rename_i numeral hformat
    cases h
    obtain ⟨rfl, n, rfl, long⟩ := format_eq_error hformat
    exact .print source n hsource long

/-- An operation of the standard table fails with an excuse only. Either an operand cannot be
read, or the operation itself refuses its operands. -/
theorem excused_of_operation {op word dest left right : String}
    (known : Mnemonics.standard.get? op = some word)
    (h : m.execute (.plain .op [word, dest, left, right]) = .error fault) :
    Excused m.environment (.plain .op [word, dest, left, right]) fault := by
  change m.perform (.compute word dest left right) = _ at h
  rcases bind_eq_error h with h | ⟨a, hleft, h⟩
  · exact excused_of_read (by simp [Instr.plain]) h
  rcases bind_eq_error h with h | ⟨b, hright, h⟩
  · exact excused_of_read (by simp [Instr.plain]) h
  rcases bind_eq_error h with h | ⟨value, -, h⟩
  · obtain ⟨arithmetical, f, rfl⟩ := compute_eq_error known h
    exact .arithmetic word dest left right a b f arithmetical hleft hright h
  · cases h

/-- A jump on a condition that never fails itself fails with an excuse only. What is left are its
two operands. -/
theorem excused_of_jump {word left right : String} {target : Int}
    (total : ∀ a b, ∃ holds, Value.compare word a b = .ok holds)
    (h : m.execute (.jumpTo target [word, left, right]) = .error fault) :
    Excused m.environment (.jumpTo target [word, left, right]) fault := by
  change m.perform (.jump word (some left) (some right) (some target)) = _ at h
  rcases bind_eq_error h with h | ⟨a, -, h⟩
  · exact excused_of_read (by simp [Instr.jumpTo]) h
  rcases bind_eq_error h with h | ⟨b, -, h⟩
  · exact excused_of_read (by simp [Instr.jumpTo]) h
  obtain ⟨holds, hcompare⟩ := total a b
  rcases bind_eq_error h with h | ⟨taken, -, h⟩
  · rw [hcompare] at h
    cases h
  · cases taken <;> cases h

/-- An instruction of a known form fails with an excuse only. There is one case for each form; the
word of a step that is not written out is one of the table, too. -/
theorem excused_of_execute {limit : Nat} (fits : i.Fits .standard limit)
    (h : m.execute i = .error fault) : Excused m.environment i fault := by
  cases fits with
  | set dest source =>
    change m.perform (.set dest source) = _ at h
    rcases bind_eq_error h with h | ⟨value, -, h⟩
    · exact excused_of_read (by simp [Instr.plain]) h
    · cases h
  | operation op word dest left right known => exact excused_of_operation known h
  | increment counter => exact excused_of_operation (rfl : Mnemonics.standard.get? "+" = _) h
  | sensor dest object property => cases h
  | goto target inside => cases h
  | branch op word left right target comparison known inside =>
    exact excused_of_jump (compare_of_comparison comparison known) h
  | leave target inside => exact excused_of_jump (fun a b => ⟨_, rfl⟩) h
  | print source =>
    change m.perform (.print source) = _ at h
    rcases bind_eq_error h with h | ⟨value, hsource, h⟩
    · exact excused_of_read (by simp [Instr.plain]) h
    rcases bind_eq_error h with h | ⟨e, -, h⟩
    · exact excused_of_print hsource h
    · cases h
  | flush device => cases h

/-! ### Where the machine is -/

/-- A machine over `code` is in its cycle, and unless it has halted the next instruction that it
fetches is one of the program. This is the invariant of a run. -/
structure Inside (code : List Instr) (m : Machine) : Prop where
  program : m.program = code.toArray
  cycle : InCycle m
  fetch : m.halted = false → m.phase = .fetch → ∃ a : Nat, m.counter = some (a : Int) ∧
    a < code.length

/-- The instruction in progress is one of the body or the end of the program. The two are told
apart by their addresses. -/
theorem Inside.loaded_cases {body : List Instr} (h : Inside (body ++ [.plain .halt []]) m)
    (hphase : m.phase ≠ .fetch) :
    (∃ i ∈ body, m.loaded = some i ∧ m.lastAddress < body.length) ∨
      (m.loaded = some (.plain .halt []) ∧ m.lastAddress = body.length) := by
  obtain ⟨i, hi, hloaded⟩ := h.cycle.loaded hphase
  rw [h.program, List.getElem?_toArray] at hi
  by_cases hbody : m.lastAddress < body.length
  · rw [List.getElem?_append_left hbody] at hi
    exact Or.inl ⟨i, List.mem_of_getElem? hi, hloaded, hbody⟩
  · have hlt := (List.getElem?_eq_some_iff.mp hi).1
    rw [List.length_append, List.length_singleton] at hlt
    have hlast : m.lastAddress = body.length := by omega
    rw [hlast, List.getElem?_concat_length] at hi
    cases hi
    exact Or.inr ⟨hloaded, hlast⟩

/-- Executing an instruction of the body leaves the counter in the program and does not halt. The
counter may be at the end, which is one of the program. -/
theorem execute_inside {limit : Nat} (fits : i.Fits .standard limit)
    (hcounter : m.counter = some (m.lastAddress + 1 : Int)) (hlast : m.lastAddress < limit)
    (h : m.execute i = .ok next) :
    next.program = m.program ∧ next.halted = m.halted ∧
      ∃ a : Nat, next.counter = some (a : Int) ∧ a ≤ limit := by
  rcases execute_cases h with ⟨e, rfl⟩ | ⟨hjump, rfl⟩ | ⟨hhalt, -⟩
  · exact ⟨rfl, rfl, m.lastAddress + 1, hcounter, hlast⟩
  · obtain ⟨target, htarget, hle⟩ := fits.target hjump
    exact ⟨rfl, rfl, target, htarget, hle⟩
  · exact absurd hhalt fits.opcode_ne_halt

/-- What a tick does to a machine inside a finished program. It fails in the middle of an
instruction and with an excuse; or it halts, having executed the end; or the machine is still
running inside. -/
theorem Inside.tick_cases (finished : Finished .standard code) (h : Inside code m)
    (running : m.halted = false) :
    (∃ i fault, m.phase = .execute ∧ m.loaded = some i ∧ Excused m.sense.environment i fault ∧
        m.tick = (m.sense, some fault)) ∨
      (m.phase = .execute ∧ m.loaded = some (.plain .halt []) ∧ m.lastAddress + 1 = code.length ∧
        m.tick.2 = none ∧ m.tick.1.halted = true ∧ m.tick.1.program = m.program) ∨
      (m.tick.2 = none ∧ m.tick.1.halted = false ∧ Inside code m.tick.1) := by
  obtain ⟨body, rfl, fits⟩ := finished
  -- The first two ticks of an instruction cannot fail here; whatever can happen does so in the
  -- third.
  cases hphase : m.phase with
  | fetch =>
    obtain ⟨a, hcounter, hlt⟩ := h.fetch running hphase
    obtain ⟨i, hi⟩ : ∃ i, m.program[a]? = some i :=
      ⟨_, by rw [h.program, List.getElem?_toArray]; exact List.getElem?_eq_getElem hlt⟩
    have htick := tick_fetch running hphase hcounter hi
    have cycle := h.cycle.tick
    rw [htick] at cycle ⊢
    exact Or.inr (Or.inr ⟨rfl, running, h.program, cycle, fun _ hfetch => nomatch hfetch⟩)
  | latch =>
    have htick := tick_latch running hphase
    have cycle := h.cycle.tick
    rw [htick] at cycle ⊢
    exact Or.inr (Or.inr ⟨rfl, running, h.program, cycle, fun _ hfetch => nomatch hfetch⟩)
  | execute =>
    have hcounter := h.cycle.execute hphase
    -- The end of the program is no instruction of the body, and only it halts.
    rcases h.loaded_cases (by simp [hphase]) with ⟨i, hi, hloaded, hlast⟩ | ⟨hloaded, hlast⟩
    · cases hexecute : m.sense.execute i with
      | error fault =>
        exact Or.inl ⟨i, fault, rfl, hloaded, excused_of_execute (fits i hi) hexecute,
          tick_execute_error running hphase hloaded hexecute⟩
      | ok next =>
        obtain ⟨hprogram, hhalted, a, ha, hle⟩ :=
          execute_inside (m := m.sense) (fits i hi) hcounter hlast hexecute
        rw [tick_execute running hphase hloaded hexecute]
        refine Or.inr
          (Or.inr ⟨rfl, hhalted.trans running, hprogram.trans h.program, .of_fetch rfl,
            fun _ _ => ⟨a, ha, ?_⟩⟩)
        rw [List.length_append]
        exact Nat.lt_succ_of_le hle
    · rw [tick_execute running hphase hloaded (rfl : m.sense.execute (.plain .halt []) = .ok _)]
      refine Or.inr (Or.inl ⟨rfl, hloaded, ?_, rfl, rfl, rfl⟩)
      rw [hlast, List.length_append]
      rfl

/-- A tick keeps the machine inside a finished program, whether it succeeds, fails or halts. -/
theorem Inside.tick (finished : Finished .standard code) (h : Inside code m) :
    Inside code m.tick.1 := by
  cases running : m.halted with
  | true =>
    rw [tick_of_halted running]
    exact h
  | false =>
    rcases h.tick_cases finished running with
      ⟨i, fault, -, -, -, htick⟩ | ⟨-, -, -, -, halts, hprogram⟩ | ⟨-, -, inside⟩
    · -- A tick that fails has only read the sensors, and the next one tries the instruction
      -- again.
      rw [htick]
      exact ⟨h.program, h.cycle.sense, h.fetch⟩
    · exact ⟨hprogram.trans h.program, h.cycle.tick, fun hfalse => by
        rw [halts] at hfalse
        cases hfalse⟩
    · exact inside

/-- A machine at the start of a finished program is inside it, because the program has at least
its end. -/
theorem inside_start (finished : Finished .standard code) (schedule : List SensorEvent) :
    Inside code (start code schedule) := by
  obtain ⟨body, rfl, -⟩ := finished
  refine ⟨rfl, .of_fetch rfl, fun _ _ => ⟨0, rfl, ?_⟩⟩
  rw [List.length_append]
  exact Nat.succ_pos _

/-- What never goes wrong with a machine over `code`:

- `in_program`: the next instruction to be fetched is one of the program;
- `halts_at_end`: the tick that halts the machine executes the end of the program, its last
  instruction;
- `excused`: a tick that fails executes an instruction, and the fault is one that is excused. -/
structure Sound (code : List Instr) (m : Machine) : Prop where
  in_program : m.halted = false → m.phase = .fetch →
    ∃ a : Nat, m.counter = some (a : Int) ∧ a < code.length
  halts_at_end : m.halted = false → m.tick.1.halted = true →
    m.phase = .execute ∧ m.loaded = some (.plain .halt []) ∧ m.lastAddress + 1 = code.length
  excused : ∀ fault, m.tick.2 = some fault →
    m.phase = .execute ∧ ∃ i, m.loaded = some i ∧ Excused m.sense.environment i fault

/-- A machine inside a finished program does not go wrong. The three cases of `Inside.tick_cases`
say so, each for one of the three parts. -/
theorem Inside.sound (finished : Finished .standard code) (h : Inside code m) : Sound code m := by
  refine ⟨h.fetch, fun running halts => ?_, fun fault hfault => ?_⟩
  · rcases h.tick_cases finished running with
      ⟨i, fault, -, -, -, htick⟩ | ⟨hphase, hloaded, hlast, -⟩ | ⟨-, runs, -⟩
    · rw [htick] at halts
      rw [show m.halted = true from halts] at running
      cases running
    · exact ⟨hphase, hloaded, hlast⟩
    · rw [runs] at halts
      cases halts
  · cases running : m.halted with
    | true =>
      rw [tick_of_halted running] at hfault
      cases hfault
    | false =>
      rcases h.tick_cases finished running with
        ⟨i, found, hphase, hloaded, excused, htick⟩ | ⟨-, -, -, hnone, -⟩ | ⟨hnone, -⟩
      · rw [htick] at hfault
        cases hfault
        exact ⟨hphase, i, hloaded, excused⟩
      · rw [hnone] at hfault
        cases hfault
      · rw [hnone] at hfault
        cases hfault

/-- **Compiled programs do not go wrong.** Whatever the schedule of the sensors and however many
ticks have passed, failed ones included, a machine over the code of a source text is sound: it is
never outside the program, it halts only at the end, and its faults are those of arithmetic and of
integers with too many digits. -/
theorem sound_of_compileCode {source : String} {code : List Instr}
    (h : (compileCode .standard .standard source).result = .ok code) (schedule : List SensorEvent)
    (n : Nat) : Sound code ((start code schedule).after n) := by
  obtain ⟨statements, -, hnone, rfl⟩ := generate_of_compileCode h
  have finished := finished_of_generate hnone
  exact Inside.sound finished
    (after_induction (inside_start finished schedule) (fun _ => Inside.tick finished) n)

/-- A conditional and a loop that cross, with a sensor whose text nothing reads. The code is that
of the compiler, and the machine is looked at after forty ticks. -/
theorem sound_of_crossing_source :
    let source := "if a<1;for i=0 i<2;endif endfor"
    let code : List Instr :=
      [.jumpTo 2 ["lessThan", "a", "1"], .jumpTo 7 ["always"], .plain .set ["i", "0"],
        .jumpTo 5 ["always"], .plain .op ["add", "i", "i", "1"],
        .plain .op ["lessThan", "__loop_cond", "i", "2"],
        .jumpTo 8 ["equal", "__loop_cond", "false"], .jumpTo 4 ["always"], .plain .halt []]
    (compileCode .standard .standard source).result = .ok code ∧
      Sound code ((start code [⟨5, "tank", "level", .text "full"⟩]).after 40) := by
  have read : Token.parse .standard "if a<1;for i=0 i<2;endif endfor" = .ok
      [[⟨.keyword, "if", 1⟩, ⟨.name, "a", 1⟩, ⟨.operator, "<", 1⟩, ⟨.value, "1", 1⟩],
        [⟨.keyword, "for", 1⟩, ⟨.name, "i", 1⟩, ⟨.operator, "=", 1⟩, ⟨.value, "0", 1⟩,
          ⟨.name, "i", 1⟩, ⟨.operator, "<", 1⟩, ⟨.value, "2", 1⟩],
        [⟨.keyword, "endif", 1⟩], [⟨.keyword, "endfor", 1⟩]] := by
    set_option maxRecDepth 2000 in cbv
  intro source code
  have compiled : (compileCode .standard .standard source).result = .ok code := by
    rw [compileCode, show Token.parse .standard source = _ from read]
    rfl
  exact ⟨compiled, sound_of_compileCode compiled _ _⟩

end Machine

end Tickscript
