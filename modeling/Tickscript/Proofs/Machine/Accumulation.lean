import Tickscript.Proofs.Generator.Assignment
import Tickscript.Proofs.Machine.Branching
import Tickscript.Proofs.Source.Segments

/-!
# `Tickscript.Proofs.Machine.Accumulation`: what an assignment computes

An assignment with more than one operator keeps its intermediate results in the destination. So
its operands are not all read in the store that it finds: from the third operand on, the
destination stands for what has been combined so far (`Environment.accumulate`). All other
operands, and the first two in any case, are read in the old store.

`executeAll_assignment` is the equation for a whole assignment. It gives the fault too, if there
is one. Where the destination does not come late in the chain, this is the fold of the operations
over the old values (`accumulate_eq_fold`). `lateDestination_not_fold` is an assignment where it
is not.
-/

set_option autoImplicit false

namespace Tickscript

open Tickscript.Text

/-! ### Reading a variable -/

/-- A name that is not one of the constants. Only such a name can be assigned to and be read
back. -/
def IsVariable (name : String) : Prop :=
  isNameText name.toList = true ∧ constant? name = none

/-- The characters of the name and the constants are looked at. -/
instance (name : String) : Decidable (IsVariable name) :=
  inferInstanceAs (Decidable (_ ∧ _))

/-- A variable is read from the store: it is no literal, no number and no constant. It starts with
a letter, which none of the other kinds of operands does. -/
theorem ofOperand_of_isVariable {name : String} (h : IsVariable name)
    (store : Table String Value) :
    Value.ofOperand store name = .ok ((store.get? name).getD .null) := by
  obtain ⟨hname, hconstant⟩ := h
  cases hchars : name.toList with
  | nil =>
    rw [hchars] at hname
    cases hname
  | cons c rest =>
    rw [hchars, isNameText, Bool.and_eq_true] at hname
    obtain ⟨-, notDigit, notOperator⟩ := classes_of_isLetter hname.1
    have notQuote : c ≠ '"' := (isSolid_of_isLetter hname.1).2
    have notMinus : c ≠ '-' := by
      rintro rfl
      cases notOperator
    have literal : literalBody? name = none := by
      rw [literalBody?, hchars]
      split
      · rename_i heq
        cases heq
        exact absurd rfl notQuote
      · rfl
    have numeral : NumeralShape.of? (c :: rest) = none := by
      simp [NumeralShape.of?, notMinus, notDigit]
    simp only [Value.ofOperand, literal, hchars, numeral, hconstant, Option.getD_none]

namespace Environment

/-- Of two values that are written to one variable only the last counts. The intermediate results
of a chain leave no trace because of this. -/
theorem write_write (e : Environment) (name : String) (first last : Value) :
    (e.write name first).write name last = e.write name last := by
  rw [write, write, write, Table.set_set_self]

/-! ### The two ways to combine operands -/

/-- Combines a value with an operand, which `read` reads. How operands are read is a parameter,
because that is all in which the two ways below differ. -/
def combine (read : String → Except Fault Value) (m : Mnemonics) (value : Value)
    (pair : Token × String) : Except Fault Value := do
  let operand ← read pair.2
  Value.compute (operationWord m pair.1) value operand

/-- The operations of a chain from left to right, over operands that are all read in `e`. This is
what one would expect an assignment to compute. -/
def fold (e : Environment) (m : Mnemonics) (first : String) (rest : List (Token × String)) :
    Except Fault Value := do
  let value ← e.read first
  rest.foldlM (combine e.read m) value

/-- The value of an operand beside a destination that already holds a value. Only an operand that
is the destination itself sees that value. -/
def readBeside (e : Environment) (dest : String) (value : Value) (arg : String) :
    Except Fault Value :=
  if arg = dest then .ok value else e.read arg

/-- Beside a variable that was just written, everything else is read as before, literals and
constants included. -/
theorem read_write (e : Environment) {dest : String} (h : IsVariable dest) (value : Value) :
    (e.write dest value).read = e.readBeside dest value := by
  funext arg
  rw [readBeside]
  split
  · rename_i same
    rw [same, read, ofOperand_of_isVariable h, write, Table.get?_set, if_pos rfl]
    rfl
  · rename_i other
    simp only [read, write, Value.ofOperand, Table.get?_set, if_neg other]

/-- The operations of a chain from left to right, with the values so far in `dest`. Behind the
first operator an operand `dest` stands for them. The first two operands are read before anything
is written. -/
def accumulate (e : Environment) (m : Mnemonics) (dest first : String) :
    List (Token × String) → Except Fault Value
  | [] => e.read first
  | pair :: rest => do
    let left ← e.read first
    let value ← combine e.read m left pair
    rest.foldlM (fun value pair => combine (e.readBeside dest value) m value pair) value

/-- If the destination is not an operand behind the first operator, all operands are read in the
old store. Then the order of reads and writes does not matter. -/
theorem accumulate_eq_fold (e : Environment) (m : Mnemonics) {dest : String} (first : String)
    {rest : List (Token × String)} (h : ∀ pair ∈ rest.tail, pair.2 ≠ dest) :
    e.accumulate m dest first rest = e.fold m first rest := by
  cases rest with
  | nil =>
    rw [accumulate, fold]
    cases e.read first <;> rfl
  | cons pair rest =>
    -- By induction on the rest of the chain, for every value that has been combined so far.
    have same : ∀ value,
        rest.foldlM (fun value pair => combine (e.readBeside dest value) m value pair) value =
          rest.foldlM (combine e.read m) value := by
      rw [List.tail_cons] at h
      induction rest with
      | nil => intro value; rfl
      | cons next rest ih =>
        intro value
        have here : combine (e.readBeside dest value) m value next =
            combine e.read m value next := by
          rw [combine, readBeside, if_neg (h next List.mem_cons_self), combine]
        rw [List.foldlM_cons, List.foldlM_cons, here]
        have others := ih fun pair hpair => h pair (List.mem_cons_of_mem _ hpair)
        exact congrArg _ (funext others)
    rw [accumulate, fold]
    simp only [same, List.foldlM_cons]

end Environment

namespace Machine

/-- Executes instructions one after the other, without fetching them. The code of an assignment
has no jumps, so this is what a machine does that comes to it. -/
def executeAll (m : Machine) (instrs : List Instr) : Except Fault Machine :=
  instrs.foldlM execute m

/-- The machine with a value written to a variable, and nothing else changed. -/
def assigned (m : Machine) (dest : String) (value : Value) : Machine :=
  { m with environment := m.environment.write dest value }

/-- One instruction of a chain reads its two operands, computes, and writes the result. The
operator that reads a property is excluded, because it does not read its operands as values. -/
theorem execute_combineInstr (mnemonics : Mnemonics) {op : Token} (h : op.text ≠ sensorOperator)
    (m : Machine) (dest left right : String) :
    m.execute (combineInstr mnemonics dest left op right) =
      (m.environment.read left >>= fun value =>
        Environment.combine m.environment.read mnemonics value (op, right)).map
          (m.assigned dest) := by
  rw [combineInstr, if_neg h]
  exact execute_operation m (operationWord mnemonics op) dest left right

/-- The rest of a chain, with the value so far in the destination. The induction is on the rest,
for every value, and the machine is the one before the assignment: later writes replace earlier
ones. -/
theorem executeAll_rest {mnemonics : Mnemonics} {dest : String} (hdest : IsVariable dest)
    {rest : List (Token × String)} (plain : ∀ pair ∈ rest, pair.1.text ≠ sensorOperator)
    (m : Machine) (value : Value) :
    (m.assigned dest value).executeAll (combineAll mnemonics dest dest rest) =
      (rest.foldlM (fun value pair =>
        Environment.combine (m.environment.readBeside dest value) mnemonics value pair) value).map
        (m.assigned dest) := by
  induction rest generalizing value with
  | nil => rfl
  | cons pair rest ih =>
    obtain ⟨op, right⟩ := pair
    -- Beside the value so far everything is read in the old store.
    have step := execute_combineInstr mnemonics (plain (op, right) List.mem_cons_self)
      (m.assigned dest value) dest dest right
    rw [show (m.assigned dest value).environment.read = _ from
        m.environment.read_write hdest value,
      show m.environment.readBeside dest value dest = .ok value from if_pos rfl] at step
    rw [combineAll, executeAll, List.foldlM_cons, List.foldlM_cons, step]
    show ((Environment.combine (m.environment.readBeside dest value) mnemonics value
      (op, right)).map _ >>= _) = _
    cases Environment.combine (m.environment.readBeside dest value) mnemonics value
      (op, right) with
    | error fault => rfl
    | ok next =>
      have same : (m.assigned dest value).assigned dest next = m.assigned dest next := by
        show Machine.mk _ _ _ _ _ _ _ _ _ _ = _
        rw [show (m.assigned dest value).environment.write dest next = _ from
          m.environment.write_write dest value next]
        rfl
      show Machine.executeAll ((m.assigned dest value).assigned dest next) _ = _
      rw [same]
      exact ih (fun pair hpair => plain pair (List.mem_cons_of_mem _ hpair)) next

/-- The code of an assignment writes what the operations accumulate, or fails as they do. In case
of a fault no machine is left, so nothing is said about intermediate results. -/
theorem executeAll_assignment (mnemonics : Mnemonics) {dest : String} (hdest : IsVariable dest)
    {rest : List (Token × String)} (plain : ∀ pair ∈ rest, pair.1.text ≠ sensorOperator)
    (m : Machine) (first : String) :
    m.executeAll (if rest.isEmpty then [.plain .set [dest, first]]
        else combineAll mnemonics dest first rest) =
      (m.environment.accumulate mnemonics dest first rest).map (m.assigned dest) := by
  cases rest with
  | nil =>
    show (m.execute (.plain .set [dest, first]) >>= fun next => pure next) = _
    show ((m.environment.read first >>= _) >>= _) = (m.environment.read first).map _
    cases m.environment.read first <;> rfl
  | cons pair rest =>
    obtain ⟨op, right⟩ := pair
    rw [List.isEmpty_cons, if_neg Bool.false_ne_true, combineAll, executeAll, List.foldlM_cons,
      execute_combineInstr mnemonics (plain (op, right) List.mem_cons_self),
      Environment.accumulate]
    cases m.environment.read first with
    | error fault => rfl
    -- The first instruction reads in the old store; from then on the destination is written.
    | ok left =>
      show ((Environment.combine m.environment.read mnemonics left (op, right)).map _ >>= _) =
        Except.map _ (Environment.combine m.environment.read mnemonics left (op, right) >>= _)
      cases Environment.combine m.environment.read mnemonics left (op, right) with
      | error fault => rfl
      | ok value =>
        exact executeAll_rest hdest
          (fun pair hpair => plain pair (List.mem_cons_of_mem _ hpair)) m value

/-- What the code of `dest = first op₁ operand₁ …` does to a machine. -/
structure Accumulates (mnemonics : Mnemonics) (dest first : String) (rest : List (Token × String))
    (m : Machine) (result : Except Fault Machine) : Prop where
  /-- It writes what the operations accumulate, or fails as they do. -/
  run : result = (m.environment.accumulate mnemonics dest first rest).map (m.assigned dest)
  /-- With no late destination, that is the fold over the old store. -/
  fold : (∀ pair ∈ rest.tail, pair.2 ≠ dest) →
    m.environment.accumulate mnemonics dest first rest = m.environment.fold mnemonics first rest
  /-- The destination has the result, and no other variable changes. -/
  store : ∀ final, result = .ok final → ∃ value,
    m.environment.accumulate mnemonics dest first rest = .ok value ∧
      ∀ name, final.environment.store.get? name =
        if name = dest then some value else m.environment.store.get? name

/-- The generator has code for every assignment whose operators calculate or compare. On every
machine the code accumulates into the destination. The generator may be in any state, and the
table of operations may be any. -/
theorem accumulates_of_isAssignment {mnemonics : Mnemonics} {dest equals first : Token}
    {pairs : List (Token × Token)} (assignment : IsAssignment dest equals first pairs)
    (hdest : IsVariable dest.text)
    (operators : ∀ pair ∈ pairs,
      pair.1.text ≠ sensorOperator ∧ (mnemonics.get? pair.1.text).isSome = true) (g : Generator) :
    ∃ code, g.addTokens mnemonics (assignmentTokens dest equals first pairs) =
      (g.append code, none) ∧
      ∀ m : Machine, Accumulates mnemonics dest.text first.text (namedPairs pairs) m
        (m.executeAll code) := by
  refine
    ⟨_, addTokens_assignmentTokens assignment (fun pair hpair => .inr (operators pair hpair).2) g,
      fun m => ?_⟩
  have plain : ∀ pair ∈ namedPairs pairs, pair.1.text ≠ sensorOperator := by
    intro pair hpair
    obtain ⟨original, horiginal, rfl⟩ := List.mem_map.mp hpair
    exact (operators original horiginal).1
  have run := executeAll_assignment mnemonics hdest plain m first.text
  rw [namedPairs, List.isEmpty_map, ← namedPairs] at run
  refine ⟨run, m.environment.accumulate_eq_fold mnemonics first.text, fun final hfinal => ?_⟩
  rw [run] at hfinal
  cases haccumulate :
    m.environment.accumulate mnemonics dest.text first.text (namedPairs pairs) with
  | error fault =>
    rw [haccumulate] at hfinal
    cases hfinal
  | ok value =>
    rw [haccumulate] at hfinal
    cases hfinal
    exact ⟨value, rfl, fun name => Table.get?_set ..⟩

/-- The destination may be one of the first two operands, as in `v = v * v <= 9`: both are read
before the destination is written. -/
theorem accumulates_of_early_destination :
    let v : Token := ⟨.name, "v", 1⟩
    let pairs : List (Token × Token) :=
      [(⟨.operator, "*", 1⟩, v), (⟨.operator, "<=", 1⟩, ⟨.value, "9", 1⟩)]
    IsAssignment v ⟨.operator, "=", 1⟩ v pairs ∧ IsVariable v.text ∧
      ∃ code, ({} : Generator).addTokens .standard
        (assignmentTokens v ⟨.operator, "=", 1⟩ v pairs) =
          (({} : Generator).append code, none) ∧
        ∀ m : Machine, Accumulates .standard v.text v.text (namedPairs pairs) m
          (m.executeAll code) := by
  intro v pairs
  have assignment : IsAssignment v ⟨.operator, "=", 1⟩ v pairs :=
    ⟨rfl, rfl, rfl, by simp [pairs, v, Token.isOperand]⟩
  have hdest : IsVariable v.text := by decide
  refine ⟨assignment, hdest, accumulates_of_isAssignment assignment hdest ?_ {}⟩
  exact List.forall_mem_cons.mpr ⟨by decide, List.forall_mem_cons.mpr ⟨by decide, by simp⟩⟩

/-- A late destination is not read in the old store: with five in `v`, `v = 1 + 2 + v` is six and
not eight. -/
theorem lateDestination_not_fold :
    let v : Token := ⟨.name, "v", 1⟩
    let plus : Token := ⟨.operator, "+", 1⟩
    let pairs : List (Token × Token) := [(plus, ⟨.value, "2", 1⟩), (plus, v)]
    let m : Machine := { program := #[], environment := { store := ⟨[("v", .int 5)]⟩ } }
    ∃ code final,
      ({} : Generator).addTokens .standard
          (assignmentTokens v ⟨.operator, "=", 1⟩ ⟨.value, "1", 1⟩ pairs) =
        (({} : Generator).append code, none) ∧
      m.executeAll code = .ok final ∧ final.environment.store.get? "v" = some (.int 6) ∧
      m.environment.fold .standard "1" (namedPairs pairs) = .ok (.int 8) := by
  intro v plus pairs m
  exact ⟨[.plain .op ["add", "v", "1", "2"], .plain .op ["add", "v", "v", "v"]],
    m.assigned "v" (.int 6), by decide, by decide, by decide, by decide⟩

end Machine

end Tickscript
