import Tickscript.Proofs.Machine.Safety
import Tickscript.Proofs.Script.Nesting
import Tickscript.Proofs.Script.Simulation

/-!
# `Tickscript.Proofs.Script.Correctness`: compiled programs do what the script says

The parts come together here. A source text that compiles and whose blocks do not cross is a
script (`Nesting`), the code of the script is what the generator made (`Placement`), and the
machine follows the script through that code (`Simulation`). What is added is the last
instruction, which halts the machine, and the way back: a machine ends in one way only, so an
ending of the machine is one of the script.
-/

set_option autoImplicit false

namespace Tickscript

namespace Script

variable {code : List Instr} {r : Readings} {s : State} {m : Machine} {script : Script}

/-- The end of a program halts the machine and changes nothing else. It takes one cycle, as every
instruction does. -/
theorem At.halts {a : Nat} (h : At code r a s m) (hi : code[a]? = some (.plain .halt [])) :
    ∃ last, m.runFor 3 = (last, none) ∧ last.halted = true ∧ Shows last.environment s := by
  have hprogram : m.program[a]? = some (.plain .halt []) := by
    rw [h.ready.program, List.getElem?_toArray]
    exact hi
  have halted : (m.prepared a (.plain .halt [])).execute (.plain .halt []) =
      .ok { m.prepared a (.plain .halt []) with halted := true } := rfl
  refine ⟨_, Machine.runFor_cycle h.ready.running h.ready.phase h.ready.counter hprogram halted,
    rfl, ?_⟩
  show Shows (m.prepared a (.plain .halt [])).environment s
  rw [h.ready.environment_prepared]
  exact h.shows_now

/-- A machine ends as an ending says: it halts, or it fails with the fault, and its environment
shows the state. -/
def EndsAs (result : Machine × Option Fault) : Ending → Prop
  | .unfinished => False
  | .stopped fault s => result.2 = some fault ∧ Shows result.1.environment s
  | .finished s => result.2 = none ∧ result.1.halted = true ∧ Shows result.1.environment s

/-- An ending that a machine has reached is final: more ticks change nothing. -/
theorem EndsAs.final {result : Machine × Option Fault} {ending : Ending}
    (h : EndsAs result ending) : Machine.Final result := by
  cases ending with
  | unfinished => exact h.elim
  | stopped fault s => exact Or.inr (by rw [h.1]; simp)
  | finished s => exact Or.inl h.2.1

/-- A machine `m` runs as a script does, with sensors that show `r`:

- `ends`: if the script ends, every long enough run of the machine ends in the same way;
- `goes_on`: if the script does not end with any number of rounds, no run of the machine does;
- `ended`: if a run of the machine ends, the script ends in the same way. -/
structure RunsAs (m : Machine) (script : Script) (r : Readings) : Prop where
  ends : ∀ rounds, script.evaluate .standard r rounds {} ≠ .unfinished →
    ∃ least : Nat, ∀ limit : Int, least ≤ limit →
      EndsAs (m.run limit) (script.evaluate .standard r rounds {})
  goes_on : (∀ rounds, script.evaluate .standard r rounds {} = .unfinished) →
    ∀ limit, (m.run limit).2 = none ∧ (m.run limit).1.halted = false
  ended : ∀ limit, Machine.Final (m.run limit) →
    ∃ rounds, EndsAs (m.run limit) (script.evaluate .standard r rounds {})

/-- A machine that follows a script up to the end of a program ends as the script does. If the
script has finished there is still the last instruction to be executed. -/
theorem exists_endsAs {a rounds : Nat} {ending : Ending} (hi : code[a]? = some (.plain .halt []))
    (h : Follows code r a rounds m ending) (hne : ending ≠ .unfinished) :
    ∃ n, EndsAs (m.runFor n) ending := by
  cases ending with
  | unfinished => exact absurd rfl hne
  | stopped fault s =>
    obtain ⟨n, last, hrun, shows⟩ := h
    exact ⟨n, by rw [hrun]; exact ⟨rfl, shows⟩⟩
  | finished s =>
    obtain ⟨n, reached, hrun, there⟩ := h
    obtain ⟨last, hlast, halted, shows⟩ := there.halts hi
    exact ⟨n + 3, by rw [Machine.runFor_trans hrun, hlast]; exact ⟨rfl, halted, shows⟩⟩

/-- A machine that starts at the address of a script, with the end of the program behind it, runs
as the script does. All parts of `RunsAs` come from one fact, that the machine follows the script
for each number of rounds. -/
theorem runsAs_of_at (placed : Placed code 0 (script.code .standard 0))
    (hi : code[script.size]? = some (.plain .halt [])) (fit : Fit script.statements)
    (h : At code r 0 {} m) (hticks : m.ticks = 0) : RunsAs m script r := by
  have follows : ∀ rounds, Follows code r script.size rounds m
      (script.evaluate .standard r rounds {}) := by
    intro rounds
    have := follows_evaluate rounds placed fit h
    rwa [Nat.zero_add] at this
  have run : ∀ limit : Int, m.run limit = m.runFor limit.toNat := by
    intro limit
    rw [Machine.run, hticks]
    simp
  have ends : ∀ rounds, script.evaluate .standard r rounds {} ≠ .unfinished →
      ∃ n, EndsAs (m.runFor n) (script.evaluate .standard r rounds {}) :=
    fun rounds hne => exists_endsAs hi (follows rounds) hne
  have goes_on : (∀ rounds, script.evaluate .standard r rounds {} = .unfinished) →
      ∀ n, ¬Machine.Final (m.runFor n) := by
    intro never n final
    -- Given `n` rounds the machine is still running after `n` ticks or more, so it was not at its
    -- end.
    have long := follows n
    rw [never n] at long
    obtain ⟨k, reached, hle, hrun, running⟩ := long
    have stays := Machine.runFor_of_final rfl final (k - n)
    rw [Nat.add_sub_cancel' hle, hrun] at stays
    rw [← stays] at final
    rcases final with halted | hne
    · rw [running] at halted
      cases halted
    · exact hne rfl
  refine ⟨fun rounds hne => ?_, fun never limit => ?_, fun limit final => ?_⟩
  · obtain ⟨n, done⟩ := ends rounds hne
    refine ⟨n, fun limit hle => ?_⟩
    obtain ⟨k, hk⟩ := Nat.exists_eq_add_of_le (by omega : n ≤ limit.toNat)
    rw [run, hk, Machine.runFor_of_final rfl done.final k]
    exact done
  · have running := goes_on never limit.toNat
    rw [run]
    simp only [Machine.Final, not_or, Bool.not_eq_true, Classical.not_not] at running
    exact ⟨running.2, running.1⟩
  · rw [run] at final ⊢
    by_cases never : ∀ rounds, script.evaluate .standard r rounds {} = .unfinished
    · exact absurd final (goes_on never limit.toNat)
    · obtain ⟨rounds, hne⟩ := Classical.not_forall.mp never
      -- Both the run at hand and the one that follows the script are final, hence the same.
      obtain ⟨n, done⟩ := ends rounds hne
      exact ⟨rounds, by rw [Machine.final_unique final done.final]; exact done⟩

end Script

/-- A source text that compiles consists of statements. The generator has added all of them, and
every block is closed. The two readings of the generator, as it adds code and as it lays out code,
are of the same statements. -/
theorem adds_of_compileCode {source : String} {code : List Instr}
    (compiled : (compileCode .standard .standard source).result = .ok code) :
    ∃ ss g, Statement.parse .standard source = .ok ss ∧ Balanced ss ∧
      Generator.Adds .standard {} ss g ∧ code = g.code ++ [.plain .halt []] := by
  obtain ⟨statements, hparse, hnone, rfl⟩ := generate_of_compileCode compiled
  obtain ⟨ss, g, hread, adds, -, hgenerate⟩ := Generator.adds_of_generate hnone
  obtain ⟨laidOut, _, hlaidOut, laid, all_taken, -⟩ := laid_of_generate hnone
  rw [hread] at hlaidOut
  cases hlaidOut
  refine ⟨ss, g, ?_, ⟨all_taken, laid.closers⟩, adds, by rw [hgenerate, Generator.append]⟩
  rw [Statement.parse, hparse]
  exact hread

/-- **Compiler correctness.** A source text that compiles consists of statements. If their blocks
do not cross, they are those of a script, and on the code the machine runs as the script does, for
every schedule whose events all come before the first instruction: it halts with the same
variables and messages, fails with the same fault in the same state, or goes on for ever. The one
variable that may differ is the flag of the loops. -/
theorem runsAs_of_compileCode {source : String} {code : List Instr}
    (compiled : (compileCode .standard .standard source).result = .ok code) :
    ∃ ss, Statement.parse .standard source = .ok ss ∧ (Uncrossed ss →
      (∃ script : Script, script.statements = ss) ∧
      ∀ script : Script, script.statements = ss → ∀ schedule : List SensorEvent,
        (∀ event ∈ schedule, event.tick = 0) →
        Script.RunsAs (Machine.start code schedule) script (Readings.advance schedule 0 {})) := by
  obtain ⟨ss, g, parsed, balanced, adds, rfl⟩ := adds_of_compileCode compiled
  refine ⟨ss, parsed, fun uncrossed => ⟨exists_script balanced uncrossed, ?_⟩⟩
  rintro script rfl schedule early
  have made := Generator.makesCode .standard script adds
  have hcode : g.code = script.code .standard 0 := made.code
  have fit : Script.Fit script.statements := fun st hst =>
    ⟨made.supported st hst, fun arg harg => operand_ne_loopFlag parsed hst harg⟩
  rw [hcode]
  refine Script.runsAs_of_at ⟨[], [.plain .halt []], rfl, rfl⟩ ?_ fit ?_ rfl
  · rw [List.nil_append, ← Script.length_code .standard 0 script, List.getElem?_concat_length]
  · refine ⟨⟨rfl, rfl, rfl, rfl, rfl, fun event hevent => ?_⟩, ⟨fun _ _ => rfl, rfl, rfl⟩⟩
    rw [early event hevent]
    exact Int.le_refl 0

/-- A conditional inside a loop that counts to nine. -/
theorem runsAs_of_nested_source :
    let source := "for i=0 i<9;if i>0;endif endfor"
    let code : List Instr :=
      [.plain .set ["i", "0"], .jumpTo 3 ["always"], .plain .op ["add", "i", "i", "1"],
        .plain .op ["lessThan", "__loop_cond", "i", "9"],
        .jumpTo 8 ["equal", "__loop_cond", "false"], .jumpTo 7 ["greaterThan", "i", "0"],
        .jumpTo 7 ["always"], .jumpTo 2 ["always"], .plain .halt []]
    let script : Script :=
      .loop 1 "i" "0" ⟨"i", ⟨.operator, "<", 1⟩, "9"⟩ none
        (.conditional 1 ⟨"i", ⟨.operator, ">", 1⟩, "0"⟩ .done 1 .done) 1 .done
    let schedule : List SensorEvent := [⟨0, "tank", "level", .int 3⟩]
    (compileCode .standard .standard source).result = .ok code ∧
      Statement.parse .standard source = .ok script.statements ∧ Uncrossed script.statements ∧
      Script.RunsAs (Machine.start code schedule) script (Readings.advance schedule 0 {}) := by
  have read : Token.parse .standard "for i=0 i<9;if i>0;endif endfor" = .ok
      [[⟨.keyword, "for", 1⟩, ⟨.name, "i", 1⟩, ⟨.operator, "=", 1⟩, ⟨.value, "0", 1⟩,
          ⟨.name, "i", 1⟩, ⟨.operator, "<", 1⟩, ⟨.value, "9", 1⟩],
        [⟨.keyword, "if", 1⟩, ⟨.name, "i", 1⟩, ⟨.operator, ">", 1⟩, ⟨.value, "0", 1⟩],
        [⟨.keyword, "endif", 1⟩], [⟨.keyword, "endfor", 1⟩]] := by
    set_option maxRecDepth 2000 in cbv
  intro source code script schedule
  have compiled : (compileCode .standard .standard source).result = .ok code := by
    rw [compileCode, show Token.parse .standard source = _ from read]
    rfl
  have parsed : Statement.parse .standard source = .ok script.statements := by
    rw [Statement.parse, show Token.parse .standard source = _ from read]
    rfl
  have uncrossed : Uncrossed script.statements := by decide
  obtain ⟨ss, hss, runs⟩ := runsAs_of_compileCode compiled
  rw [parsed] at hss
  cases hss
  exact ⟨compiled, parsed, uncrossed, (runs uncrossed).2 script rfl schedule (by simp [schedule])⟩

end Tickscript
