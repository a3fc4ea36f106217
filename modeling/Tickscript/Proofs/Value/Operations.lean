import Tickscript.Generator
import Tickscript.Value.Compute

/-!
# `Tickscript.Proofs.Value.Operations`: the operations of the standard table

The machine finds an operation by its word when it executes an instruction. For the words of the
standard table this always succeeds: a comparison gives a truth value, a power gives a number or
nothing, and the other four fail only if a floating point number cannot hold what they need
(`compute_eq_error`).

A condition can also be used as an operation. Then it gives the same truth value, as an integer
(`compute_of_compare`), which is how the test of a loop is kept in a variable.
-/

set_option autoImplicit false

namespace Tickscript

/-- An entry that is found is in the table. What holds of all entries, which are finitely many,
holds of every entry that is found. -/
theorem Table.mem_of_get? {κ α : Type} [DecidableEq κ] {t : Table κ α} {key : κ} {entry : α}
    (h : t.get? key = some entry) : (key, entry) ∈ t.entries := by
  obtain ⟨before, after, hentries, -⟩ := List.lookup_eq_some_iff.mp h
  rw [hentries]
  exact List.mem_append_right _ List.mem_cons_self

/-- The words of the operations that can be refused. A power is not among them, and neither are
the comparisons. -/
def arithmeticWords : List String := ["add", "sub", "mul", "div"]

/-- A refusal that comes out of an arithmetic operation is one of arithmetic: the machine only
wraps it up as a fault of its own. -/
theorem arithmetic_of_mapError {α : Type} {x : Except ArithmeticFault α} {fault : Fault}
    (h : x.mapError Fault.arithmetic = .error fault) : ∃ f, fault = .arithmetic f := by
  cases x with
  | error f =>
    cases h
    exact ⟨f, rfl⟩
  | ok value => cases h

/-- An operation that is refused is one of the four arithmetic ones, and it is refused for a
reason of arithmetic. The words are those of the standard table. -/
theorem calculate_eq_error {word : String} {a b : Number} {fault : Fault}
    (hword : word ∈ "pow" :: arithmeticWords) (h : Number.calculate word a b = .error fault) :
    word ∈ arithmeticWords ∧ ∃ f, fault = .arithmetic f := by
  rcases List.mem_cons.mp hword with rfl | hword
  · -- A power that floating point cannot hold is no refusal: it gives nothing.
    cases h
  · refine ⟨hword, ?_⟩
    simp only [arithmeticWords, List.mem_cons, List.not_mem_nil, or_false] at hword
    rcases hword with rfl | rfl | rfl | rfl <;> exact arithmetic_of_mapError h

/-- A condition that has a word and is not the one that always holds can be used as an operation.
The cases are the ten of `Condition.ofWord?`. -/
theorem namesComparison_of_ofWord? {word : String} {c : Condition}
    (h : Condition.ofWord? word = some c) (hne : word ≠ always) :
    namesComparison word = true := by
  unfold Condition.ofWord? at h
  -- The first word is the one that always holds, and the last case is that of no word.
  split at h
  case h_1 => exact absurd rfl hne
  case h_10 => cases h
  all_goals rfl

/-- A condition used as an operation gives its truth value as an integer. So the test of a loop,
which is kept in a variable, agrees with the test of a conditional. -/
theorem compute_of_compare {word : String} {a b : Value} {holds : Bool} (hne : word ≠ always)
    (h : Value.compare word a b = .ok holds) :
    Value.compute word a b = .ok (Value.ofBool holds) := by
  have named : namesComparison word = true := by
    unfold Value.compare at h
    split at h
    · rename_i c hc
      exact namesComparison_of_ofWord? hc hne
    · cases h
  rw [Value.compute, if_pos named, h]
  rfl

/-- A comparison of the standard table is a condition, and not the one that always holds. There
are five of them, and each has its word. -/
theorem condition_of_comparison {op word : String} (hop : op ∈ comparisons)
    (known : Mnemonics.standard.get? op = some word) :
    word ≠ always ∧ ∃ c, Condition.ofWord? word = some c := by
  simp only [comparisons, List.mem_cons, List.not_mem_nil, or_false] at hop
  rcases hop with rfl | rfl | rfl | rfl | rfl <;> cases known <;> exact ⟨by decide, _, rfl⟩

/-- A comparison of the standard table never fails, whatever the values are. Values that have no
order are handled by the condition itself. -/
theorem compare_of_comparison {op word : String} (hop : op ∈ comparisons)
    (known : Mnemonics.standard.get? op = some word) (a b : Value) :
    ∃ holds, Value.compare word a b = .ok holds := by
  obtain ⟨-, c, hc⟩ := condition_of_comparison hop known
  exact ⟨c.holds a b, by rw [Value.compare, hc]⟩

/-- The words of the standard table: those of comparisons, and those of calculations. The table is
finite, so this is decided entry by entry. -/
theorem word_cases {op word : String} (known : Mnemonics.standard.get? op = some word) :
    op ∈ comparisons ∨ (namesComparison word = false ∧ word ∈ "pow" :: arithmeticWords) := by
  have each : ∀ entry ∈ Mnemonics.standard.entries, entry.1 ∈ comparisons ∨
      (namesComparison entry.2 = false ∧ entry.2 ∈ "pow" :: arithmeticWords) := by decide
  exact each (op, word) (Table.mem_of_get? known)

/-- An operation of the standard table fails only in arithmetic, and only if it is one of the four
arithmetic operations. All faults of running a program come down to this or to jumps. -/
theorem compute_eq_error {op word : String} (known : Mnemonics.standard.get? op = some word)
    {a b : Value} {fault : Fault} (h : Value.compute word a b = .error fault) :
    word ∈ arithmeticWords ∧ ∃ f, fault = .arithmetic f := by
  rcases word_cases known with hop | ⟨hname, hword⟩
  · obtain ⟨holds, hcompare⟩ := compare_of_comparison hop known a b
    rw [compute_of_compare (condition_of_comparison hop known).1 hcompare] at h
    cases h
  · rw [Value.compute, hname] at h
    exact calculate_eq_error hword h

end Tickscript
