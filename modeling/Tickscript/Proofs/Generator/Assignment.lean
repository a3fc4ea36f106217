import Tickscript.Proofs.Generator.Progress

/-!
# `Tickscript.Proofs.Generator.Assignment`: from the tokens of an assignment to its code

An assignment is a name, an equals sign, an operand, and any number of pairs of an operator and an
operand. Such tokens are always read as the assignment that they look like
(`ofTokens_assignmentTokens`), and with supported operators the generator always adds its code, in
whatever state it is (`addTokens_assignmentTokens`).
-/

set_option autoImplicit false

namespace Tickscript

/-- The tokens of `dest = first op₁ operand₁ op₂ operand₂ …` An operator stands before each
operand but the first, so there is an odd number of tokens behind the equals sign. -/
def assignmentTokens (dest equals first : Token) (pairs : List (Token × Token)) : List Token :=
  dest :: equals :: first :: pairs.flatMap fun pair => [pair.1, pair.2]

/-- The pairs of an assignment as its statement has them. An operator stays a token, because an
error about it needs its line; of an operand only the text is kept. -/
def namedPairs (pairs : List (Token × Token)) : List (Token × String) :=
  pairs.map fun pair => (pair.1, pair.2.text)

/-- Each token stands where an assignment wants its kind. The equals sign is known by its text,
because the reader looks for that and not for a kind. -/
structure IsAssignment (dest equals first : Token) (pairs : List (Token × Token)) : Prop where
  dest : dest.kind = .name
  equals : equals.text = "="
  first : first.isOperand = true
  pairs : ∀ pair ∈ pairs, pair.1.kind = .operator ∧ pair.2.isOperand = true

/-- Pairs that stand one behind the other are found again. The induction is on the pairs, and each
of them is the two tokens that `pairUp?` takes off in one step. -/
theorem pairUp?_flatMap (pairs : List (Token × Token)) :
    Statement.pairUp? (pairs.flatMap fun pair => [pair.1, pair.2]) = some pairs := by
  induction pairs with
  | nil => rfl
  | cons pair pairs ih =>
    show (Statement.pairUp? (pairs.flatMap fun pair => [pair.1, pair.2])).map
        ((pair.1, pair.2) :: ·) = _
    rw [ih]
    rfl

/-- A check that everything passes is passed. The reader checks all operands this way and then all
operators, and this lemma is about either. -/
theorem forM_eq_ok {ε α : Type} {check : α → Except ε Unit} {xs : List α}
    (h : ∀ x ∈ xs, check x = .ok ()) : xs.forM check = .ok () := by
  induction xs with
  | nil => rfl
  | cons x xs ih =>
    show (check x >>= fun _ => xs.forM check) = _
    rw [h x List.mem_cons_self]
    exact ih fun y hy => h y (List.mem_cons_of_mem _ hy)

section
variable {dest equals first : Token} {pairs : List (Token × Token)}

/-- The tokens of an assignment are read as the assignment. Nothing is asked of the operators but
that they are operators: an unknown one is read too, and refused later. -/
theorem ofTokens_assignmentTokens (h : IsAssignment dest equals first pairs) :
    Statement.ofTokens (assignmentTokens dest equals first pairs) =
      .ok (.assign dest.text first.text (namedPairs pairs)) := by
  have start : first.requireOperand = .ok () := by rw [Token.requireOperand, if_pos h.first]
  have operands : pairs.forM (fun pair => pair.2.requireOperand) = .ok () :=
    forM_eq_ok fun pair hpair => by rw [Token.requireOperand, if_pos (h.pairs pair hpair).2]
  have operators : pairs.forM (fun pair => pair.1.requireOperator) = .ok () :=
    forM_eq_ok fun pair hpair => by rw [Token.requireOperator, if_pos (h.pairs pair hpair).1]
  simp only [Statement.ofTokens, assignmentTokens, h.dest, Statement.ofNameLed, h.equals, if_true,
    Statement.ofAssignment, pairUp?_flatMap, start, operands, operators]
  rfl

/-- The generator adds the code of an assignment with supported operators, whatever it has made
before. A single operand is set, and a chain has one instruction for each operator. -/
theorem addTokens_assignmentTokens {m : Mnemonics} (h : IsAssignment dest equals first pairs)
    (supported : ∀ pair ∈ pairs, m.Supports pair.1) (g : Generator) :
    g.addTokens m (assignmentTokens dest equals first pairs) =
      (g.append (if pairs.isEmpty then [.plain .set [dest.text, first.text]]
        else combineAll m dest.text first.text (namedPairs pairs)), none) := by
  have named : ∀ pair ∈ namedPairs pairs, m.Supports pair.1 := by
    intro pair hpair
    obtain ⟨original, horiginal, rfl⟩ := List.mem_map.mp hpair
    exact supported original horiginal
  -- An assignment closes no block, so no state of the generator can refuse it.
  obtain ⟨after, hafter⟩ := Generator.exists_add_of_supported
    (s := .assign dest.text first.text (namedPairs pairs)) named rfl g
  obtain ⟨-, rfl⟩ := Generator.add_assign hafter
  rw [Generator.addTokens, ofTokens_assignmentTokens h]
  refine hafter.trans ?_
  rw [Statement.code, namedPairs, List.isEmpty_map]

end

end Tickscript
