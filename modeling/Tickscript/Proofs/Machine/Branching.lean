import Tickscript.Proofs.Machine.Cycle
import Tickscript.Proofs.Value.Operations

/-!
# `Tickscript.Proofs.Machine.Branching`: the two ways to test a condition

A conditional jumps on its condition. A loop computes the condition first, keeps it in a variable
as an integer, and then jumps out if that variable equals `false`. The two find a condition by its
word in different ways: for an operation the beginning of the word can be enough to take it for a
comparison, for a jump it is the whole word. And the loop goes through an integer, a variable and
a second comparison. That the two agree takes a proof.

What a test comes to depends on the variables alone. `Branches` says what a jump does over a
store, in every machine with that store: it fails, it is taken or it is not. `Writes` says what an
operation does over a store. `LoopTest` puts the two together. The machine that jumps need only
have the variables that the operation left, so ticks and sensor events may come in between.

`branches_compareIn` and `writes_computeIn` give the outcomes of a jump and of an operation. For a
condition these are the same but for the form of the truth value (`computeIn_eq_map`), and the
jump behind the test turns it round (`compareIn_loopFlag`).
-/

set_option autoImplicit false

namespace Tickscript

variable {store after : Table String Value} {word left right : String}

/-! ### Operands in a store -/

/-- Whether the condition named by a word holds of two operands, which are read in a store. Only
the variables matter, so the rest of the environment is left empty. -/
def compareIn (store : Table String Value) (word left right : String) : Except Fault Bool := do
  let a ← Environment.read { store } left
  let b ← Environment.read { store } right
  Value.compare word a b

/-- The result of the operation named by a word for two operands, which are read in a store. -/
def computeIn (store : Table String Value) (word left right : String) : Except Fault Value := do
  let a ← Environment.read { store } left
  let b ← Environment.read { store } right
  Value.compute word a b

/-- A condition that is computed gives its truth value, and fails where the condition fails. The
operands are read in the same order, so the faults are the same too. -/
theorem computeIn_eq_map {c : Condition} (hc : Condition.ofWord? word = some c)
    (hne : word ≠ always) (store : Table String Value) (left right : String) :
    computeIn store word left right = (compareIn store word left right).map Value.ofBool := by
  refine bind_eq_map_bind fun a => bind_eq_map_bind fun b => ?_
  have holds : Value.compare word a b = .ok (c.holds a b) := by
    rw [Value.compare, hc]
  rw [compute_of_compare hne holds, holds]
  rfl

/-- The flag reads as the value that was written to it. It is an ordinary variable, though no
source can name it. -/
theorem read_loopFlag (e : Environment) (value : Value) :
    (e.write loopFlag value).read loopFlag = .ok value := by
  have plain : ∀ store, Value.ofOperand store loopFlag = .ok ((store.get? loopFlag).getD .null) :=
    fun _ => rfl
  rw [Environment.read, plain, Environment.write, Table.get?_set, if_pos rfl]
  rfl

/-- The flag equals `false` if the truth value in it is false. The flag is an integer and `false`
is a constant, and the comparison takes them for equal. -/
theorem compareIn_loopFlag (store : Table String Value) (holds : Bool) :
    compareIn (store.set loopFlag (.ofBool holds)) "equal" loopFlag "false" = .ok (!holds) := by
  have flag : Environment.read { store := store.set loopFlag (.ofBool holds) } loopFlag =
      .ok (.ofBool holds) := read_loopFlag { store } (.ofBool holds)
  rw [compareIn, flag]
  cases holds <;> rfl

namespace Machine

/-! ### One instruction over a store -/

/-- A jump with two operands, as an equation: what it does depends on the store, and what it
changes is the counter. -/
theorem execute_jump (m : Machine) (word left right : String) (target : Option Int) :
    m.execute { opcode := .jump, args := [word, left, right], target } =
      (compareIn m.environment.store word left right).map fun taken =>
        if taken then { m with counter := target } else m := by
  show m.perform (.jump word (some left) (some right) target) = _
  refine bind_eq_map_bind fun a => bind_eq_map_bind fun b => ?_
  cases Value.compare word a b with
  | error fault => rfl
  | ok taken => cases taken <;> rfl

/-- An operation, as an equation: what it computes depends on the store, and what it changes is
one variable. -/
theorem execute_operation (m : Machine) (word dest left right : String) :
    m.execute (.plain .op [word, dest, left, right]) =
      (computeIn m.environment.store word left right).map fun value =>
        { m with environment := m.environment.write dest value } := by
  show m.perform (.compute word dest left right) = _
  refine bind_eq_map_bind fun a => bind_eq_map_bind fun b => ?_
  cases Value.compute word a b <;> rfl

/-- Over a store, a jump with these arguments fails with a fault, is taken or is not taken. A jump
that is taken goes to its target, whichever that is, and changes nothing else. -/
def Branches (store : Table String Value) (args : List String)
    (outcome : Except Fault Bool) : Prop :=
  ∀ (m : Machine) (target : Option Int), m.environment.store = store →
    m.execute { opcode := .jump, args, target } =
      outcome.map fun taken => if taken then { m with counter := target } else m

/-- Over a store, an operation with these arguments fails with a fault or leaves another store,
and changes nothing else. -/
def Writes (store : Table String Value) (args : List String)
    (outcome : Except Fault (Table String Value)) : Prop :=
  ∀ m : Machine, m.environment.store = store →
    m.execute (.plain .op args) =
      outcome.map fun after => { m with environment := { m.environment with store := after } }

/-- A machine with the given variables, to try a jump or an operation on. It has no program. -/
def withStore (store : Table String Value) : Machine :=
  { program := #[], environment := { store } }

/-- A jump has one outcome. The target tells one that is taken from one that is not. -/
theorem Branches.unique {args : List String} {outcome other : Except Fault Bool}
    (h : Branches store args outcome) (h' : Branches store args other) : outcome = other := by
  have same := (h (withStore store) (some 1) rfl).symm.trans (h' (withStore store) (some 1) rfl)
  refine eq_of_map_eq ?_ same
  intro taken taken' reached
  -- The machine stands at address 0 and the target is 1, so the counter shows whether the jump
  -- was taken.
  have moved : ∀ b : Bool,
      (if b then { withStore store with counter := some 1 } else withStore store).counter =
        if b then some 1 else some 0 := by
    intro b
    cases b <;> rfl
  have counters := congrArg counter reached
  rw [moved, moved] at counters
  revert counters
  cases taken <;> cases taken' <;> decide

/-- An operation has one outcome: the store that it leaves can be read off the machine. -/
theorem Writes.unique {args : List String} {outcome other : Except Fault (Table String Value)}
    (h : Writes store args outcome) (h' : Writes store args other) : outcome = other := by
  have same := (h (withStore store) rfl).symm.trans (h' (withStore store) rfl)
  exact eq_of_map_eq (fun _ _ reached => congrArg (·.environment.store) reached) same

/-- A jump has an outcome over every store, namely that of the comparison of its operands. -/
theorem branches_compareIn (store : Table String Value) (word left right : String) :
    Branches store [word, left, right] (compareIn store word left right) := by
  rintro m target rfl
  exact execute_jump m word left right target

/-- An operation has an outcome over every store, namely the store with the result in the
destination. -/
theorem writes_computeIn (store : Table String Value) (word dest left right : String) :
    Writes store [word, dest, left, right]
      ((computeIn store word left right).map (store.set dest)) := by
  rintro m rfl
  rw [execute_operation]
  cases computeIn m.environment.store word left right <;> rfl

/-! ### The test of a loop -/

/-- The outcome of a loop's test over a store: the operation that computes the condition fails, or
it leaves a store over which the jump out of the loop has this outcome. -/
inductive LoopTest (store : Table String Value) (word left right : String) :
    Except Fault Bool → Prop where
  | refused (fault : Fault) (writes : Writes store [word, loopFlag, left, right] (.error fault)) :
      LoopTest store word left right (.error fault)
  | tested (after : Table String Value) (outcome : Except Fault Bool)
      (writes : Writes store [word, loopFlag, left, right] (.ok after))
      (branches : Branches after ["equal", loopFlag, "false"] outcome) :
      LoopTest store word left right outcome

/-- The test of a loop has one outcome, since the operation has one and the jump behind it has
one. -/
theorem LoopTest.unique {outcome other : Except Fault Bool}
    (h : LoopTest store word left right outcome) (h' : LoopTest store word left right other) :
    outcome = other := by
  cases h with
  | refused fault writes =>
    cases h' with
    | refused fault' writes' => rw [Except.error.inj (writes.unique writes')]
    | tested after other writes' branches' => cases writes.unique writes'
  | tested after outcome writes branches =>
    cases h' with
    | refused fault' writes' => cases writes.unique writes'
    | tested after' other writes' branches' =>
      cases writes.unique writes'
      exact branches.unique branches'

/-- The jump out of a loop is taken where the condition does not hold. If an operand cannot be
read, the operation fails with the fault of the comparison. -/
theorem loopTest_of_condition {c : Condition} (hc : Condition.ofWord? word = some c)
    (hne : word ≠ always) (store : Table String Value) (left right : String) :
    LoopTest store word left right ((compareIn store word left right).map (!·)) := by
  have writes := writes_computeIn store word loopFlag left right
  rw [computeIn_eq_map hc hne] at writes
  cases hcompare : compareIn store word left right with
  | error fault =>
    rw [hcompare] at writes
    exact .refused fault writes
  | ok holds =>
    rw [hcompare] at writes
    -- The flag holds the truth value now, and the jump asks whether it is false.
    have jumps := branches_compareIn (store.set loopFlag (.ofBool holds)) "equal" loopFlag "false"
    rw [compareIn_loopFlag] at jumps
    exact .tested _ _ writes jumps

/-- **The test of a loop is the opposite of that of a conditional.** Take a comparison of the
language, any two operands and any variables. Then the jump of a conditional has an outcome, and
it has a given one exactly if the jump out of a loop has the opposite one: what the one takes the
other does not, and both fail alike. Behind this is that every condition but the one that always
holds, used as an operation, gives its truth value as an integer. -/
theorem loopTest_opposes_conditional (store : Table String Value) (left right : String) :
    (∀ op ∈ comparisons, ∀ word, Mnemonics.standard.get? op = some word →
      (∃ outcome, Branches store [word, left, right] outcome) ∧
        ∀ outcome, Branches store [word, left, right] outcome ↔
          LoopTest store word left right (outcome.map (!·))) ∧
      ∀ (word : String) (x y : Value) (holds : Bool), word ≠ always →
        Value.compare word x y = .ok holds → Value.compute word x y = .ok (.ofBool holds) := by
  refine ⟨fun op hop word known => ?_, fun word x y holds => compute_of_compare⟩
  obtain ⟨hne, c, hc⟩ := condition_of_comparison hop known
  have jumps := branches_compareIn store word left right
  have loops := loopTest_of_condition hc hne store left right
  refine ⟨⟨_, jumps⟩, fun outcome => ⟨fun h => ?_, fun h => ?_⟩⟩
  · rw [h.unique jumps]
    exact loops
  · -- The opposite of an outcome determines the outcome.
    have opposite := h.unique loops
    have same : outcome = compareIn store word left right :=
      eq_of_map_eq (fun _ _ => Bool.not_inj) opposite
    rw [same]
    exact jumps

/-- A variable that is not a number, compared with a number: the condition does not hold, so a
loop is left. -/
theorem loopTest_opposes_conditional_of_nan :
    let store : Table String Value := ⟨[("x", .float (0.0 / 0.0))]⟩
    "<=" ∈ comparisons ∧ Mnemonics.standard.get? "<=" = some "lessThanEq" ∧
      Branches store ["lessThanEq", "x", "1.5"] (.ok false) ∧
      LoopTest store "lessThanEq" "x" "1.5" (.ok true) ∧
      Value.compare "lessThanEq" (.float (0.0 / 0.0)) (.float 1.5) = .ok false ∧
      Value.compute "lessThanEq" (.float (0.0 / 0.0)) (.float 1.5) = .ok (.int 0) := by
  intro store
  have fails : compareIn store "lessThanEq" "x" "1.5" = .ok false := rfl
  have compared : Value.compare "lessThanEq" (.float (0.0 / 0.0)) (.float 1.5) = .ok false := rfl
  have jumps : Branches store ["lessThanEq", "x", "1.5"] (.ok false) := by
    rw [← fails]
    exact branches_compareIn store "lessThanEq" "x" "1.5"
  obtain ⟨tests, operations⟩ := loopTest_opposes_conditional store "x" "1.5"
  have opposes := (tests "<=" (by decide) "lessThanEq" rfl).2
  exact ⟨by decide, rfl, jumps, (opposes (.ok false)).mp jumps, compared,
    operations "lessThanEq" _ _ false (by decide) compared⟩

end Machine

end Tickscript
