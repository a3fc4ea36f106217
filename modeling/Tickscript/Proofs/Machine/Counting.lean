import Mathlib
import Tickscript.Proofs.Machine.Accumulation
import Tickscript.Proofs.Source.Assignments

/-!
# `Tickscript.Proofs.Machine.Counting`: how often a loop runs, and for how long

A loop over `i` from `first` as long as `i < bound`, in steps of `step`, has
`(bound - first) / step` rounds, rounded up. Here this is shown of the source text, through
compilation and program text to the machine: a program that counts the rounds halts with this
number (`counts_rounds`). The clock is exact. A round takes 15 ticks, and everything else takes
18.

`Leads` says where code takes a machine, in how many ticks, and what it does to the variables. It
is stated for every machine that stands at an address, with any schedule, since no sensor is read.
One instruction takes three ticks, and pieces of code are put together with `Leads.trans`. A loop
is an induction over the rounds that are left (`leads_rounds`).
-/

set_option autoImplicit false

namespace Tickscript

open Tickscript.Text Tickscript.Numeral

namespace Machine

/-! ### Code and its ticks -/

/-- A machine that is about to fetch the instruction at `a`, with the clock at `now`. Sensors,
buffer and outputs are left open: the code below neither reads the ones nor writes the others. -/
structure Poised (code : List Instr) (a now : Nat) (store : Table String Value)
    (m : Machine) : Prop where
  program : m.program = code.toArray
  running : m.halted = false
  phase : m.phase = .fetch
  counter : m.counter = some (a : Int)
  ticks : m.ticks = now
  store : m.environment.store = store

/-- In `n` ticks the code leads from `a` to `b`, and from one store to another. This holds of
every machine that stands at `a` with that store, whatever the clock shows and whatever its
schedule is. -/
def Leads (code : List Instr) (n a : Nat) (store : Table String Value) (b : Nat)
    (after : Table String Value) : Prop :=
  ∀ (m : Machine) (now : Nat), Poised code a now store m →
    ∃ next, m.runFor n = (next, none) ∧ Poised code b (now + n) after next

section Leads

variable {code : List Instr} {a b c n k : Nat} {store after last : Table String Value}
    {m : Machine} {i : Instr}

/-- Pieces of code that follow one another take their ticks together. -/
theorem Leads.trans (first : Leads code n a store b after)
    (second : Leads code k b after c last) :
    Leads code (n + k) a store c last := by
  intro m now poised
  obtain ⟨middle, hfirst, there⟩ := first m now poised
  obtain ⟨next, hsecond, poised⟩ := second middle (now + n) there
  refine ⟨next, ?_, ?_⟩
  · rw [runFor_trans hfirst, hsecond]
  · rwa [Nat.add_assoc] at poised

/-- The machine finds its next instruction: its program is the code as an array. -/
theorem Poised.getElem? {now : Nat} (h : Poised code a now store m) (hi : code[a]? = some i) :
    m.program[a]? = some i := by
  rw [h.program, List.getElem?_toArray]
  exact hi

/-- An instruction that only changes variables and the counter takes three ticks. It is enough to
look at its execution on a machine whose counter has moved on. -/
theorem leads_of_execute (hi : code[a]? = some i)
    (h : ∀ m : Machine, m.environment.store = store → m.counter = some ((a : Int) + 1) →
      ∃ e : Environment, e.store = after ∧
        m.execute i = .ok { m with environment := e, counter := some (b : Int) }) :
    Leads code 3 a store b after := by
  intro m now poised
  obtain ⟨e, he, executed⟩ := h (m.prepared a i) poised.store rfl
  refine ⟨_, runFor_cycle poised.running poised.phase poised.counter
    (poised.getElem? hi) executed, ?_⟩
  refine ⟨poised.program, poised.running, rfl, rfl, ?_, he⟩
  show m.ticks + 2 + 1 = now + 3
  rw [poised.ticks]

/-- The operand of a machine is read in its store, and nothing else of the machine matters. -/
theorem read_of_store {arg : String} {v : Value} (hstore : m.environment.store = store)
    (h : Value.ofOperand store arg = .ok v) : m.environment.read arg = .ok v := by
  rw [Environment.read, hstore, h]
  rfl

/-- Setting a variable to an operand. -/
theorem leads_set {dest source : String} {v : Value}
    (hi : code[a]? = some (.plain .set [dest, source]))
    (h : Value.ofOperand store source = .ok v) :
    Leads code 3 a store (a + 1) (store.set dest v) := by
  refine leads_of_execute hi ?_
  intro m hstore hcounter
  refine ⟨m.environment.write dest v, by rw [Environment.write, hstore], ?_⟩
  show m.perform (.set dest source) = _
  rw [perform, read_of_store hstore h, Nat.cast_succ, ← hcounter]
  rfl

/-- Computing a value and keeping it in a variable. -/
theorem leads_compute {word dest left right : String} {x y v : Value}
    (hi : code[a]? = some (.plain .op [word, dest, left, right]))
    (hx : Value.ofOperand store left = .ok x) (hy : Value.ofOperand store right = .ok y)
    (hv : Value.compute word x y = .ok v) :
    Leads code 3 a store (a + 1) (store.set dest v) := by
  refine leads_of_execute hi ?_
  intro m hstore hcounter
  refine ⟨m.environment.write dest v, by rw [Environment.write, hstore], ?_⟩
  show m.perform (.compute word dest left right) = _
  rw [perform, read_of_store hstore hx, read_of_store hstore hy, Nat.cast_succ, ← hcounter]
  show (Value.compute word x y >>= _) = _
  rw [hv]
  rfl

/-- A jump that is always taken changes no variable. -/
theorem leads_goto (hi : code[a]? = some (.jumpTo (b : Nat) [always])) :
    Leads code 3 a store b store := by
  refine leads_of_execute hi ?_
  intro m hstore _
  exact ⟨m.environment, hstore, rfl⟩

/-- A jump with a condition goes to its target or to the next instruction, and in either case
takes three ticks. -/
theorem leads_jump {word left right : String} {x y : Value} {taken : Bool}
    (hi : code[a]? = some (.jumpTo (b : Nat) [word, left, right]))
    (hx : Value.ofOperand store left = .ok x) (hy : Value.ofOperand store right = .ok y)
    (htaken : Value.compare word x y = .ok taken) :
    Leads code 3 a store (if taken then b else a + 1) store := by
  refine leads_of_execute hi ?_
  intro m hstore hcounter
  refine ⟨m.environment, hstore, ?_⟩
  show m.perform (.jump word (some left) (some right) (some (b : Int))) = _
  rw [perform, readOptional, readOptional, read_of_store hstore hx, read_of_store hstore hy]
  show (Value.compare word x y >>= _) = _
  rw [htaken]
  cases taken with
  | true => rfl
  -- The counter has moved on by itself before the jump was executed.
  | false =>
    show Except.ok m =
        .ok { m with environment := m.environment, counter := some ((a + 1 : Nat) : Int) }
    rw [Nat.cast_succ, ← hcounter]

/-- The end of a program takes three ticks, too, and the machine keeps its variables. -/
theorem Poised.halts {now : Nat} (h : Poised code a now store m)
    (hi : code[a]? = some (.plain .halt [])) :
    ∃ next, m.runFor 3 = (next, none) ∧ next.halted = true ∧ next.ticks = now + 3 ∧
      next.environment.store = store := by
  refine ⟨_, runFor_cycle h.running h.phase h.counter (h.getElem? hi) rfl, rfl, ?_, h.store⟩
  show m.ticks + 2 + 1 = now + 3
  rw [h.ticks]

end Leads

end Machine

namespace Counting

/-! ### The program -/

/-- The source text: a counter, a loop with the three numbers in its header, and a body of one
statement that counts. -/
def source (first bound step : Nat) : String :=
  "count = 0;\nfor i = " ++ toString first ++ " to i < " ++ toString bound ++ " step i = i + " ++
    toString step ++ ":\ncount = count + 1;\nendfor"

/-- The texts of its statements, for any texts in place of the three numbers. The separators of
the header are among them. -/
def texts (first bound step : String) : List (List String) :=
  [["count", "=", "0"],
    ["for", "i", "=", first, "to", "i", "<", bound, "step", "i", "=", "i", "+", step],
    ["count", "=", "count", "+", "1"],
    ["endfor"]]

/-- Its instructions. The loop is tested at 4, and its step at 3 is skipped on entry. -/
def code (first bound step : String) : List Instr :=
  [.plain .set ["count", "0"], .plain .set ["i", first], .jumpTo 4 [always],
    .plain .op ["add", "i", "i", step], .plain .op ["lessThan", loopFlag, "i", bound],
    .jumpTo 8 ["equal", loopFlag, "false"], .plain .op ["add", "count", "count", "1"],
    .jumpTo 3 [always], .plain .halt []]

/-- The text of a number is a run of digits, so it is read as a number and not as a name. -/
theorem digits_toString (n : Nat) :
    (toString n).toList ≠ [] ∧ ∀ d ∈ (toString n).toList, isDigit d = true := by
  have chars : (toString n).toList = Nat.toDigits 10 n := by
    show n.repr.toList = _
    rw [Nat.repr_eq_ofList_toDigits, String.toList_ofList]
  rw [chars]
  refine ⟨Nat.toDigits_ne_nil, ?_⟩
  intro d hd
  exact (isPlainDigit_of_mem_toDigits hd).of_forall (P := fun d => isDigit d = true) (by decide)

/-- A number is a fragment of its own in a source, as it needs no quotation marks. -/
theorem isBare_toString (n : Nat) : IsBare (toString n).toList := by
  obtain ⟨ne, digits⟩ := digits_toString n
  obtain ⟨c, rest, hchars⟩ := List.exists_cons_of_ne_nil ne
  rw [hchars] at digits ⊢
  exact .number digits

/-- A number is a value for the reader. -/
theorem ofText?_toString (n : Nat) : TokenKind.ofText? .standard (toString n) = some .value :=
  ofText?_number (digits_toString n).1 (digits_toString n).2

/-- A closer at the end of a source needs no terminator, because the end of the text is one. -/
theorem gather_endfor (line : Nat) :
    Fragment.gather .standard [] (Lexeme.scanFrom line "endfor".toList) =
      [[⟨"endfor", line⟩]] := by
  have found : lexemeAt? 'e' ['n', 'd', 'f', 'o', 'r'] = some ("endfor".toList, []) := by decide
  have scanned : Lexeme.scanFrom line "endfor".toList = [⟨"endfor".toList, line⟩] := by
    show Lexeme.scanFrom line ['e', 'n', 'd', 'f', 'o', 'r'] = _
    rw [scanFrom_of_some found, Lexeme.scanFrom]
  rw [scanned]
  rfl

/-- The source text, statement by statement. In this form each statement ends with its terminator
and a line break, and the reader can take them off one by one. -/
theorem toList_source (first bound step : Nat) :
    (source first bound step).toList =
      (" ".intercalate (["count", "="] ++ ["0"])).toList ++ ';' :: '\n' ::
        ((" ".intercalate
          (["for", "i", "=", toString first, "to", "i", "<", toString bound, "step", "i", "=",
            "i", "+"] ++ [toString step])).toList ++ ':' :: '\n' ::
          ((" ".intercalate (["count", "=", "count", "+"] ++ ["1"])).toList ++ ';' :: '\n' ::
            "endfor".toList)) := by
  have space : " ".toList = [' '] := rfl
  -- The four fixed parts of the text.
  have head : "count = 0;\nfor i = ".toList =
      (" ".intercalate (["count", "="] ++ ["0"])).toList ++
        ';' :: '\n' :: (["for", "i", "="].flatMap fun t => t.toList ++ [' ']) := by decide
  have limit : " to i < ".toList =
      ' ' :: (["to", "i", "<"].flatMap fun t => t.toList ++ [' ']) := by
    decide
  have increment : " step i = i + ".toList =
      ' ' :: (["step", "i", "=", "i", "+"].flatMap fun t => t.toList ++ [' ']) := by decide
  have body : ":\ncount = count + 1;\nendfor".toList =
      ':' :: '\n' :: ((" ".intercalate (["count", "=", "count", "+"] ++ ["1"])).toList ++
        ';' :: '\n' :: "endfor".toList) := by decide
  unfold source
  rw [toList_intercalate_concat " "
    ["for", "i", "=", toString first, "to", "i", "<", toString bound, "step", "i", "=", "i", "+"]]
  simp only [String.toList_append, head, limit, increment, body, space, List.flatMap_cons,
    List.flatMap_nil, List.append_assoc, List.cons_append, List.nil_append]

/-- The reader splits the source into the texts of its statements. The numbers are those of the
source, whatever they are, so this is not a computation. -/
theorem textsOf_source (first bound step : Nat) :
    textsOf (Fragment.statements .standard (source first bound step)) =
      texts (toString first) (toString bound) (toString step) := by
  have number (n : Nat) : IsFragmentText (toString n).toList := .bare (isBare_toString n)
  have header : ∀ t ∈ ["for", "i", "=", toString first, "to", "i", "<", toString bound, "step",
      "i", "=", "i", "+"], IsFragmentText t.toList := by
    simp only [List.forall_mem_cons]
    exact ⟨by decide, by decide, by decide, number first, by decide, by decide, by decide,
      number bound, by decide, by decide, by decide, by decide, by decide, nofun⟩
  rw [Fragment.statements, Lexeme.scan, toList_source]
  -- One line of the source after the other; the last one has no terminator.
  refine textsOf_gather_line (by decide) (by decide) (by simp +decide) (by decide) ?_ 1
  refine textsOf_gather_line header (isBare_toString step) (by simp +decide) (by decide) ?_
  refine textsOf_gather_line (by decide) (by decide) (by simp +decide) (by decide) ?_
  intro line
  rw [gather_endfor]
  rfl

/-- The source compiles to the nine instructions, whatever the numbers are. -/
theorem compileCode_source (first bound step : Nat) :
    (compileCode .standard .standard (source first bound step)).result =
      .ok (code (toString first) (toString bound) (toString step)) := by
  have number (n : Nat) : tokenOf (toString n) = ⟨.value, toString n, 1⟩ := by
    rw [tokenOf, ofText?_toString]
    rfl
  refine compileCode_of_textsOf (textsOf_source first bound step) ?_ ?_
  · simp only [texts, List.forall_mem_cons, ofText?_toString]
    simp +decide
  · -- With the kinds known, nothing in the compilation looks at the texts of the numbers.
    simp only [texts, List.map_cons, List.map_nil, number]
    rfl

/-- The program text of the source is read as the nine instructions. Targets can be written, and
no operand is a literal that would be changed on the way. -/
theorem exists_text (first bound step : Nat) :
    ∃ text, compile (source first bound step) = .ok text ∧
      decode text = .ok (code (toString first) (toString bound) (toString step)) := by
  have compiled := compileCode_source first bound step
  obtain ⟨text, written⟩ := (finished_of_compileCode compiled).exists_encode
    (show 9 ≤ Nat.pow 10 digitLimit by decide +kernel)
  refine ⟨text, ?_, (decode_eq_ok_iff compiled written).mpr ?_⟩
  · rw [compile, compileText]
    simp only [compiled, written]
    rfl
  · -- None of the operands is a literal.
    have number (n : Nat) : isLiteralText (toString n).toList = false :=
      (IsOperandText.number (digits_toString n).1 (digits_toString n).2).isBare_iff.mp
        (isBare_toString n)
    have plain : ∀ i ∈ code (toString first) (toString bound) (toString step), ∀ arg ∈ i.args,
        isLiteralText arg.toList = false := by
      simp only [code, Instr.plain, Instr.jumpTo, List.forall_mem_cons, number]
      simp +decide
    intro i hi arg harg literal
    rw [plain i hi arg harg] at literal
    cases literal

/-! ### The run -/

/-- The operand of a number stands for the number, if it has no more digits than can be read. -/
theorem ofOperand_toString_nat {n : Nat} (h : n < Nat.pow 10 digitLimit)
    (store : Table String Value) :
    Value.ofOperand store (toString n) = .ok (.int n) :=
  ofOperand_toString (n := n) h store

/-- The two variables of the program. Other variables may be there, such as the flag of the
loop. -/
structure Counts (store : Table String Value) (count i : Int) : Prop where
  count : store.get? "count" = some (.int count)
  index : store.get? "i" = some (.int i)

namespace Counts

variable {store : Table String Value} {count i : Int}

/-- The counter as an operand. -/
theorem read_count (h : Counts store count i) :
    Value.ofOperand store "count" = .ok (.int count) := by
  rw [ofOperand_of_isVariable (by decide), h.count]
  rfl

/-- The variable of the loop as an operand. -/
theorem read_index (h : Counts store count i) : Value.ofOperand store "i" = .ok (.int i) := by
  rw [ofOperand_of_isVariable (by decide), h.index]
  rfl

/-- Setting the counter leaves the variable of the loop. -/
theorem set_count (h : Counts store count i) (v : Int) :
    Counts (store.set "count" (.int v)) v i where
  count := by simp [Table.get?_set]
  index := by simp [Table.get?_set, h.index]

/-- Setting the variable of the loop leaves the counter. -/
theorem set_index (h : Counts store count i) (v : Int) :
    Counts (store.set "i" (.int v)) count v where
  count := by simp [Table.get?_set, h.count]
  index := by simp [Table.get?_set]

/-- The flag of the loop is another variable, so the test changes neither of the two. -/
theorem set_loopFlag (h : Counts store count i) (v : Value) :
    Counts (store.set loopFlag v) count i where
  count := by simp [Table.get?_set, loopFlag, h.count]
  index := by simp [Table.get?_set, loopFlag, h.index]

end Counts

section Run

variable {first bound step : Nat} {store : Table String Value} {count i : Int}

open Machine

/-- The program up to its first test: three instructions, and the step is skipped. -/
theorem leads_entry (hfirst : first < Nat.pow 10 digitLimit) (bound step : String) :
    ∃ store, Leads (code (toString first) bound step) 9 0 {} 4 store ∧ Counts store 0 first := by
  let cleared : Table String Value := Table.set {} "count" (.int 0)
  let entered : Table String Value := cleared.set "i" (.int first)
  have zero : Leads (code (toString first) bound step) 3 0 {} 1 cleared := leads_set rfl rfl
  have start : Leads (code (toString first) bound step) 3 1 cleared 2 entered :=
    leads_set rfl (ofOperand_toString_nat hfirst cleared)
  have skip : Leads (code (toString first) bound step) 3 2 entered 4 entered := leads_goto rfl
  exact ⟨entered, (zero.trans start).trans skip, ⟨rfl, rfl⟩⟩

/-- The test of the loop goes to the body or to the end. It takes two instructions, one that
computes the flag and one that jumps on it. -/
theorem leads_test (hbound : bound < Nat.pow 10 digitLimit) (first step : String)
    (h : Counts store count i) :
    Leads (code first (toString bound) step) 6 4 store (if i < bound then 6 else 8)
      (store.set loopFlag (.ofBool (i < bound))) := by
  let flagged : Table String Value := store.set loopFlag (.ofBool (i < bound))
  have outcome : Value.compute "lessThan" (.int i) (.int bound) = .ok (.ofBool (i < bound)) := by
    have order : (compare i (bound : Int) = .lt) = (i < bound) := propext compare_lt_iff_lt
    show Except.ok (Value.ofBool (some (compare i (bound : Int)) = some .lt)) = _
    simp only [Option.some.injEq, order]
  have flag : Value.ofOperand flagged loopFlag = .ok (.ofBool (i < bound)) := by
    show Except.ok ((flagged.get? loopFlag).getD .null) = _
    rw [Table.get?_set, if_pos rfl]
    rfl
  -- The loop is left if the flag is false.
  have leaves : Value.compare "equal" (.ofBool (i < bound)) (.int 0) =
      .ok (!decide (i < bound)) := by
    cases decide (i < bound) <;> rfl
  have test : Leads (code first (toString bound) step) 3 4 store 5 flagged :=
    leads_compute rfl h.read_index (ofOperand_toString_nat hbound store) outcome
  have branch : Leads (code first (toString bound) step) 3 5 flagged
      (if !decide (i < bound) then 8 else 6) flagged :=
    leads_jump rfl flag rfl leaves
  have ways : (if !decide (i < bound) then 8 else 6) = if i < bound then 6 else 8 := by
    by_cases hlt : i < bound <;> simp [hlt]
  rw [ways] at branch
  exact test.trans branch

/-- The body and the step of the loop, back to the test: three instructions, the jump back
included. -/
theorem leads_body (hstep : step < Nat.pow 10 digitLimit) (first bound : String)
    (h : Counts store count i) :
    ∃ after, Leads (code first bound (toString step)) 9 6 store 4 after ∧
      Counts after (count + 1) (i + step) := by
  let counted : Table String Value := store.set "count" (.int (count + 1))
  have counts : Counts counted (count + 1) i := h.set_count (count + 1)
  have body : Leads (code first bound (toString step)) 3 6 store 7 counted :=
    leads_compute rfl h.read_count rfl rfl
  have back : Leads (code first bound (toString step)) 3 7 counted 3 counted := leads_goto rfl
  have advance : Leads (code first bound (toString step)) 3 3 counted 4
      (counted.set "i" (.int (i + step))) :=
    leads_compute rfl counts.read_index (ofOperand_toString_nat hstep counted) rfl
  exact ⟨_, (body.trans back).trans advance, counts.set_index (i + step)⟩

/-- **The rounds of the loop.** If the counter stays below the bound for `n` steps and no longer,
there are `n` rounds, and then the loop is left. -/
theorem leads_rounds (hbound : bound < Nat.pow 10 digitLimit)
    (hstep : step < Nat.pow 10 digitLimit) (first : String) (n : Nat) (h : Counts store count i)
    (below : ∀ k < n, i + k * step < bound) (above : ¬i + n * step < bound) :
    ∃ after, Leads (code first (toString bound) (toString step)) (15 * n + 6) 4 store 8 after ∧
      Counts after (count + n) (i + n * step) := by
  -- The induction is on the rounds that are left; the counter and the store are those of the
  -- moment.
  induction n generalizing store count i with
  | zero =>
    have test := leads_test hbound first (toString step) h
    have outside : ¬i < bound := by simpa using above
    rw [if_neg outside] at test
    exact ⟨_, test, by simpa using h.set_loopFlag _⟩
  | succ n ih =>
    have test := leads_test hbound first (toString step) h
    have inside : i < bound := by simpa using below 0 (by omega)
    rw [if_pos inside] at test
    obtain ⟨again, body, counts⟩ :=
      leads_body hstep first (toString bound) (h.set_loopFlag (.ofBool (i < bound)))
    have later : ∀ k : Nat, i + step + k * step = i + ((k + 1 : Nat) : Int) * step := by
      intro k
      push_cast
      ring
    obtain ⟨after, rounds, final⟩ := ih counts
      (by intro k hk; rw [later]; exact below (k + 1) (by omega)) (by rwa [later])
    refine ⟨after, ?_, ?_⟩
    · have whole := (test.trans body).trans rounds
      rwa [show 6 + 9 + (15 * n + 6) = 15 * (n + 1) + 6 by omega] at whole
    · rw [later] at final
      rwa [show count + ((n + 1 : Nat) : Int) = count + 1 + n by push_cast; ring]

end Run

/-- The number of rounds, rounded up from the quotient, bounds the steps that stay below. If the
start is not below the bound the quotient is not positive, and there is no round.

This is the only place where rational numbers occur. -/
theorem lt_rounds_iff {first bound step : Nat} (pos : 0 < step) (k : Nat) :
    k < ⌈((bound : ℚ) - first) / step⌉₊ ↔ (first : Int) + k * step < bound := by
  have hstep : (0 : ℚ) < step := by exact_mod_cast pos
  rw [Nat.lt_ceil, lt_div_iff₀ hstep, lt_sub_iff_add_lt, add_comm]
  exact_mod_cast Iff.rfl

/-- **Counting loops iterate the right number of times.** The source compiles, and its program
text is read as a program. With any schedule, and with any limit that is not below this number,
the machine halts when the clock is at 18 and 15 for each round, and has counted the rounds. -/
theorem counts_rounds (first bound step : Nat) (hfirst : first < Nat.pow 10 digitLimit)
    (hbound : bound < Nat.pow 10 digitLimit) (hstep : step < Nat.pow 10 digitLimit)
    (pos : 1 ≤ step) :
    let n := ⌈((bound : ℚ) - first) / step⌉₊
    ∃ text code, compile (source first bound step) = .ok text ∧ decode text = .ok code ∧
      ∀ (schedule : List SensorEvent) (limit : Int), 18 + 15 * n ≤ limit →
        ∃ m, (Machine.start code schedule).run limit = (m, none) ∧ m.halted = true ∧
          m.ticks = 18 + 15 * n ∧ m.environment.store.get? "count" = some (.int n) ∧
          m.environment.store.get? "i" = some (.int (first + n * step)) := by
  intro n
  obtain ⟨text, compiled, decoded⟩ := exists_text first bound step
  refine ⟨text, _, compiled, decoded, ?_⟩
  intro schedule limit long
  obtain ⟨entered, entry, counts⟩ := leads_entry hfirst (toString bound) (toString step)
  obtain ⟨after, rounds, final⟩ := leads_rounds hbound hstep (toString first) n counts
    (fun k hk => (lt_rounds_iff pos k).mp hk)
    (fun hlt => Nat.lt_irrefl n ((lt_rounds_iff pos n).mpr hlt))
  have start : Machine.Poised (code (toString first) (toString bound) (toString step)) 0 0 {}
      (Machine.start (code (toString first) (toString bound) (toString step)) schedule) :=
    ⟨rfl, rfl, rfl, rfl, rfl, rfl⟩
  obtain ⟨last, run, there⟩ := (entry.trans rounds) _ 0 start
  obtain ⟨m, halt, halted, ticks, store⟩ := there.halts rfl
  have whole := (Machine.runFor_trans run).trans halt
  refine ⟨m, ?_, halted, ?_, ?_, ?_⟩
  · -- More ticks than that change nothing, since the machine has halted.
    obtain ⟨k, hk⟩ := Nat.exists_eq_add_of_le (show 9 + (15 * n + 6) + 3 ≤ limit.toNat by omega)
    show Machine.runFor (limit - 0).toNat _ = _
    rw [Int.sub_zero, hk]
    exact Machine.runFor_of_final whole (.inl halted) k
  · omega
  · rw [store, final.count, Int.zero_add]
  · rw [store, final.index]

/-- The counter is 2, 5 and 8 in the three rounds, and the loop is left at 11. -/
theorem counts_rounds_of_uneven_steps :
    ∃ text code, compile
      "count = 0;\nfor i = 2 to i < 9 step i = i + 3:\ncount = count + 1;\nendfor" = .ok text ∧
      decode text = .ok code ∧
      ∀ (schedule : List SensorEvent) (limit : Int), 63 ≤ limit →
        ∃ m, (Machine.start code schedule).run limit = (m, none) ∧ m.halted = true ∧
          m.ticks = 63 ∧
          m.environment.store.get? "count" = some (.int 3) ∧
            m.environment.store.get? "i" = some (.int 11) := by
  have digits : 9 < Nat.pow 10 digitLimit := by decide +kernel
  have three : ⌈(((9 : Nat) : ℚ) - ((2 : Nat) : ℚ)) / ((3 : Nat) : ℚ)⌉₊ = 3 := by norm_num
  have counted := counts_rounds 2 9 3 (by omega) digits (by omega) (by decide)
  rw [three] at counted
  exact counted

end Counting

end Tickscript
