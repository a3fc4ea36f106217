import Tickscript.Proofs.Generator.Grammar
import Tickscript.Proofs.Generator.Landings

/-!
# `Tickscript.Proofs.Generator.Confinement`: what a refused statement leaves behind

A statement can be refused at many places, and some of them come after code was already made.
`Refusal` lists what can be refused in tokens that fit a form, each with the error and with the
code that is left. Code is left only by a chain of operators, up to the first that the table
lacks, and by the header of a loop, up to the step or to the test. All else is refused before
anything is made. Tokens that fit no form are refused by the reader, which makes nothing at all.

So a refused statement never touches a stack, an instruction that was there before, or a notice,
and what it leaves has nothing to patch (`refused_confined`).
-/

set_option autoImplicit false

namespace Tickscript

/-! ### Errors of the reader -/

/-- All errors of a computation are about the number or the kinds of tokens. The reader is made of
checks that are of this kind, put together with `>>=` and `forM`, and the lemmas of this section
follow that structure. -/
def OnlyArity {α : Type} (x : Except CompileError α) : Prop :=
  ∀ e, x = .error e → e.category = .arity

namespace OnlyArity

variable {α β : Type}

/-- A computation that succeeds has no errors, so nothing is to be shown about them. Each reader
of a form ends this way, once all its checks have passed. -/
theorem ok (a : α) : OnlyArity (.ok a) := nofun

/-- An error of the category `arity` is one that `OnlyArity` allows. A reader that finds too few
tokens, or too many, stops with such an error. -/
theorem error {e : CompileError} (h : e.category = .arity) :
    OnlyArity (.error e : Except CompileError α) := by
  rintro _ ⟨rfl⟩
  exact h

/-- The errors of two parts in a row are those of the first part and those of the second one, for
each value that the first part may hand over. This takes a `do` block of checks apart. -/
theorem bind {x : Except CompileError α} {f : α → Except CompileError β} (hx : OnlyArity x)
    (hf : ∀ a, OnlyArity (f a)) : OnlyArity (x >>= f) := by
  intro e h
  rcases bind_eq_error h with h | ⟨a, -, h⟩
  · exact hx e h
  · exact hf a e h

/-- A check that fails with an error of this category. All checks of a single token are of this
shape, so the four lemmas below are instances of it. -/
theorem check {p : Prop} [Decidable p] {e : CompileError} (h : e.category = .arity) :
    OnlyArity (if p then .ok () else .error e) := by
  split
  · exact ok ()
  · exact error h

/-- A token that is no operand is refused for its kind. It is the check that the reader makes most
often: of the operands of a chain, of a test and of a `print`. -/
theorem requireOperand (t : Token) : OnlyArity t.requireOperand := check rfl

/-- A token that is no name is refused for its kind. The reader asks this of what is assigned to,
in the header of a loop and in its step. -/
theorem requireName (t : Token) : OnlyArity t.requireName := check rfl

/-- A token that is no operator is refused for its kind. Whether the table knows the operator is
not asked here: that is for the generator, and its refusal is of another category. -/
theorem requireOperator (t : Token) : OnlyArity t.requireOperator := check rfl

/-- A token that is not the sign of an assignment is refused for its kind, as in the header of a
loop and in its step. -/
theorem requireEquals (t : Token) : OnlyArity t.requireEquals := check rfl

/-- A check of all the elements of a list has only the errors of its checks. An assignment checks
its operands this way, and after them its operators. -/
theorem forM {check : α → Except CompileError Unit} (h : ∀ a, OnlyArity (check a)) (xs : List α) :
    OnlyArity (xs.forM check) := by
  -- The check stops at the first failure, so this is `bind` at each element.
  induction xs with
  | nil => exact ok ()
  | cons x xs ih => exact bind (h x) fun _ => ih

end OnlyArity

namespace Statement

/-- The reader of an assignment refuses tokens for their number or their kinds. It first asks for
an expression that alternates, then checks the operands and then the operators. -/
theorem onlyArity_ofAssignment (dest : Token) (expression : List Token) :
    OnlyArity (ofAssignment dest expression) := by
  unfold ofAssignment
  split
  · exact .error rfl
  · split
    · exact .error rfl
    · -- Operands are all checked before the first operator is.
      refine .bind (.requireOperand _) fun _ => .bind (.forM ?_ _) fun _ =>
        .bind (.forM ?_ _) fun _ => .ok _
      · exact fun pair => .requireOperand pair.2
      · exact fun pair => .requireOperator pair.1

/-- Tokens that start with a name are ignored or read as an assignment, so only the reader of
assignments can refuse them. -/
theorem onlyArity_ofNameLed (dest : Token) (rest : List Token) :
    OnlyArity (ofNameLed dest rest) := by
  unfold ofNameLed
  dsimp only
  split
  · exact .ok _
  · split
    · exact onlyArity_ofAssignment dest _
    · exact .ok _

/-- The reader of a conditional refuses tokens for their number, or because an operand of the test
is none. It does not look at the operator of the test, which is left to the generator. -/
theorem onlyArity_ofConditional (line : Int) (tokens : List Token) :
    OnlyArity (ofConditional line tokens) := by
  unfold ofConditional
  split
  · exact .bind (.requireOperand _) fun _ => .bind (.requireOperand _) fun _ => .ok _
  · exact .error rfl

/-- The reader of a `print` refuses tokens for their number, or because the value or the device is
no operand. -/
theorem onlyArity_ofPrint (line : Int) (tokens : List Token) :
    OnlyArity (ofPrint line tokens) := by
  unfold ofPrint
  split
  · exact .bind (.requireOperand _) fun _ => .bind (.requireOperand _) fun _ => .ok _
  · exact .error rfl

/-- The reader of a loop's step. A step of the wrong length is refused for it, and the five tokens
of any other one are checked from left to right. A loop without a step is not refused here. -/
theorem onlyArity_read (line : Int) (shape : StepShape) : OnlyArity (shape.read line) := by
  unfold StepShape.read
  split
  · exact .ok _
  · exact .bind (.requireName _) fun _ => .bind (.requireEquals _) fun _ =>
      .bind (.requireOperand _) fun _ => .bind (.requireOperator _) fun _ =>
      .bind (.requireOperand _) fun _ => .ok _
  · exact .error rfl

/-- The reader of a loop refuses tokens for their number or their kinds: the five checks of the
header come first, then those of the step (`onlyArity_read`). -/
theorem onlyArity_ofLoop (line : Int) (tokens : List Token) : OnlyArity (ofLoop line tokens) := by
  unfold ofLoop
  split
  · split
    · split
      · exact .error rfl
      · exact .bind (.requireName _) fun _ => .bind (.requireEquals _) fun _ =>
          .bind (.requireOperand _) fun _ => .bind (.requireOperand _) fun _ =>
          .bind (.requireOperand _) fun _ => .bind (onlyArity_read line _) fun _ => .ok _
    · exact .error rfl
  · exact .error rfl

/-- The reader of a closer, which is the same for both kinds of blocks, refuses tokens behind the
word that closes. That a block is open is not asked here. -/
theorem onlyArity_ofCloser (block : Block) (line : Int) (s : Statement) (tokens : List Token) :
    OnlyArity (ofCloser block line s tokens) := by
  unfold ofCloser
  split
  · exact .ok _
  · exact .error rfl

/-- The reader refuses tokens for their number or their kinds, or for the word that they start
with. The cases are those of the reader: no tokens at all, a name, each keyword in the order in
which the reader tries them, and what is neither. -/
theorem category_of_ofTokens {tokens : List Token} {e : CompileError}
    (h : ofTokens tokens = .error e) :
    e.category = .arity ∨ e.category = .unrecognizedStatement := by
  unfold ofTokens at h
  split at h
  · cases h
    exact Or.inl rfl
  · rename_i head rest
    split at h
    · exact Or.inl (onlyArity_ofNameLed head rest e h)
    · -- One `split` for each keyword, in the order in which the reader tries them.
      unfold ofKeywordLed at h
      dsimp only at h
      split at h
      · exact Or.inl (onlyArity_ofConditional _ _ e h)
      split at h
      · exact Or.inl (onlyArity_ofCloser _ _ _ _ e h)
      split at h
      · exact Or.inl (onlyArity_ofLoop _ _ e h)
      split at h
      · exact Or.inl (onlyArity_ofCloser _ _ _ _ e h)
      split at h
      · exact Or.inl (onlyArity_ofPrint _ _ e h)
      · cases h
        exact Or.inr rfl
    · cases h
      exact Or.inr rfl

end Statement

/-! ### Errors of the generator -/

/-- Why the operator of a test is refused: it is no operator, or none that a test may use. The
kind of the token is looked at before the table is, so these are two different errors. -/
def testRefusal (op : Token) : CompileError :=
  if op.kind = .operator then .unsupportedOperator op.text op.line
  else .expectedOperator op.text op.line

/-- What can be refused in tokens that fit a form, with the error and the code that is left:

- `operator`: the table lacks an operator of an assignment. The operators before it have their
  instructions, the first of which combines the first two operands;
- `condition`: the operator of a conditional is none that a test may use. Nothing is left;
- `strayConditional`, `strayLoop`: no block of its kind is open for a closer. Nothing is left;
- `step`: the table lacks the operator of a loop's step. The first two instructions of the loop
  are left;
- `test`: the operator of a loop's test is none that a test may use. The first three are left. -/
inductive Refusal (m : Mnemonics) (g : Generator) : Form → CompileError → List Instr → Prop where
  | operator {dest equals first op operand : Token} {before later : List (Token × Token)}
      (supported : ∀ pair ∈ before, m.Supports pair.1) (refused : ¬m.Supports op) :
      Refusal m g (.assignment dest equals first (before ++ (op, operand) :: later))
        (.unsupportedOperator op.text op.line)
        (combineAll m dest.text first.text (namedPairs before))
  | condition {keyword left op right : Token} (refused : ¬m.SupportsTest op) :
      Refusal m g (.conditional keyword left op right) (testRefusal op) []
  | strayConditional {keyword : Token} (none : g.conditionals = []) :
      Refusal m g (.closeConditional keyword) (.unmatchedCloser .conditional keyword.line) []
  | strayLoop {keyword : Token} (none : g.loops = []) :
      Refusal m g (.closeLoop keyword) (.unmatchedCloser .loop keyword.line) []
  | step {keyword : Token} {header : LoopTokens} {step : StepTokens}
      (hstep : header.step = some step)
      (refused : ¬m.Supports step.op) :
      Refusal m g (.loop keyword header) (.unsupportedOperator step.op.text step.op.line)
        ((header.code m g.code.length).take 2)
  | test {keyword : Token} {header : LoopTokens} (supported : ∀ s ∈ header.step, m.Supports s.op)
      (refused : ¬m.SupportsTest header.op) :
      Refusal m g (.loop keyword header) (testRefusal header.op)
        ((header.code m g.code.length).take 3)

/-- An operator is refused if the table lacks it. The error names the operator and its line,
whatever the operands are and wherever the result goes. -/
theorem computeInstr_eq_error {m : Mnemonics} {dest left right : String} {op : Token}
    {e : CompileError} (h : computeInstr m dest left op right = .error e) :
    ¬m.Supports op ∧ e = .unsupportedOperator op.text op.line := by
  refine ⟨fun supported => ?_, ?_⟩
  · rw [computeInstr_of_supports supported] at h
    cases h
  · unfold computeInstr at h
    split at h
    · cases h
    · split at h <;> cases h
      rfl

/-- The operator of a test is refused if it is none that a test may use. There are three ways to
be refused: it is no operator, the table lacks it, or it stands for something that no test
does. -/
theorem conditionWord_eq_error {m : Mnemonics} {op : Token} {e : CompileError}
    (h : conditionWord m op = .error e) : ¬m.SupportsTest op ∧ e = testRefusal op := by
  refine ⟨fun supported => ?_, ?_⟩
  · rw [conditionWord_of_supportsTest supported] at h
    cases h
  · unfold conditionWord Token.requireOperator at h
    unfold testRefusal
    split at h
    · rename_i hkind
      rw [if_pos hkind]
      obtain h | ⟨_, -, h⟩ := bind_eq_error h
      · cases h
      · -- The token is an operator, so it is the table that refused it.
        split at h
        · split at h <;> cases h
          rfl
        · cases h
          rfl
    · rename_i hkind
      rw [if_neg hkind]
      cases h
      rfl

/-- A chain is refused at the first operator that the table lacks, and the operators before it
have their instructions. The induction is on the chain, for each operand that it may start from:
the operand of the next instruction is where the last one has left its result. -/
theorem chainInstrs_eq_some {m : Mnemonics} {dest left : String} {rest : List (Token × String)}
    {e : CompileError} (h : (chainInstrs m dest left rest).2 = some e) :
    ∃ before op right later, rest = before ++ (op, right) :: later ∧
      (∀ pair ∈ before, m.Supports pair.1) ∧ ¬m.Supports op ∧
      e = .unsupportedOperator op.text op.line ∧
      (chainInstrs m dest left rest).1 = combineAll m dest left before := by
  induction rest generalizing left with
  | nil => cases h
  | cons pair rest ih =>
    obtain ⟨op, right⟩ := pair
    unfold chainInstrs at h ⊢
    cases hinstr : computeInstr m dest left op right with
    -- Nothing comes before an operator that is refused at once.
    | error found =>
      simp only [hinstr] at h ⊢
      cases h
      obtain ⟨refused, rfl⟩ := computeInstr_eq_error hinstr
      exact ⟨[], op, right, rest, rfl, by simp, refused, rfl, rfl⟩
    | ok instr =>
      simp only [hinstr] at h ⊢
      obtain ⟨supported, rfl⟩ := computeInstr_eq_ok hinstr
      obtain ⟨before, other, operand, later, rfl, others, refused, rfl, hcode⟩ := ih h
      -- before, other, operand, later, rfl, ?_, refused, rfl, ?_⟩ :: The operator here has its
      -- instruction, and joins those that came before the refused one.
      refine ⟨(op, right) :: before, other, operand, later, rfl, ?_, refused, rfl, ?_⟩
      · exact List.forall_mem_cons.mpr ⟨supported, others⟩
      · rw [hcode, combineAll]

/-- The step of a loop is refused if the table lacks its operator. A loop without a step has the
standard one, which is never refused. -/
theorem stepInstr_eq_error {m : Mnemonics} {counter : String} {step : Option StepTokens}
    {e : CompileError} (h : stepInstr m counter (step.map StepTokens.step) = .error e) :
    ∃ s, step = some s ∧ ¬m.Supports s.op ∧ e = .unsupportedOperator s.op.text s.op.line := by
  cases step with
  | none => cases h
  | some s =>
    obtain ⟨refused, rfl⟩ := computeInstr_eq_error h
    exact ⟨s, rfl, refused, rfl⟩

namespace Generator

/-- A form that the generator refuses is refused in one of the ways that `Refusal` lists, and the
generator has added what is left. There is one case for each form. A line that is ignored and a
`print` are never refused, and an assignment of a single operand is not either. -/
theorem exists_refusal {m : Mnemonics} {g : Generator} {f : Form} {e : CompileError}
    (h : (g.add m f.statement).2 = some e) :
    ∃ left, Refusal m g f e left ∧ (g.add m f.statement).1 = g.append left := by
  have nothing : g = g.append [] := by simp [append]
  cases f with
  | ignored dest rest => cases h
  | print keyword value device => cases h
  | assignment dest equals first pairs =>
    cases pairs with
    | nil => cases h
    | cons pair pairs =>
      obtain ⟨named, op, text, others, hsplit, supported, refused, rfl, hcode⟩ :=
        chainInstrs_eq_some h
      -- The pairs before the operator are those of the tokens before it.
      obtain ⟨before, rest, heq, rfl, hrest⟩ := List.map_eq_append_iff.mp hsplit
      obtain ⟨⟨op', operand⟩, later, rfl, hop, -⟩ := List.map_eq_cons_iff.mp hrest
      cases hop
      rw [heq]
      refine ⟨_, .operator ?_ refused, ?_⟩
      · exact fun pair hpair => supported _ (List.mem_map_of_mem hpair)
      · rw [← heq]
        exact congrArg g.append hcode
  | conditional keyword left op right =>
    simp only [Form.statement, add, Generator.openConditional] at h ⊢
    cases hword : conditionWord m op with
    | ok word => simp [hword] at h
    | error found =>
      simp only [hword] at h ⊢
      cases h
      obtain ⟨refused, rfl⟩ := conditionWord_eq_error hword
      exact ⟨[], .condition refused, nothing⟩
  | closeConditional keyword =>
    -- A closer is refused exactly when its own stack is empty.
    simp only [Form.statement, add, Generator.closeConditional] at h ⊢
    cases hstack : g.conditionals with
    | cons jump rest => simp [hstack] at h
    | nil =>
      simp only [hstack] at h ⊢
      cases h
      exact ⟨[], .strayConditional hstack, nothing⟩
  | closeLoop keyword =>
    simp only [Form.statement, add, Generator.closeLoop] at h ⊢
    cases hstack : g.loops with
    | cons jump rest => simp [hstack] at h
    | nil =>
      simp only [hstack] at h ⊢
      cases h
      exact ⟨[], .strayLoop hstack, nothing⟩
  | loop keyword header =>
    simp only [Form.statement, LoopTokens.statement, add, Generator.openLoop, loopInstrs] at h ⊢
    -- The step is made before the test is looked at.
    cases hstep : stepInstr m header.counter.text (header.step.map StepTokens.step) with
    | error found =>
      simp only [hstep] at h ⊢
      cases h
      obtain ⟨step, hpresent, refused, rfl⟩ := stepInstr_eq_error hstep
      exact ⟨_, .step hpresent refused, rfl⟩
    | ok stepping =>
      obtain ⟨supported, rfl⟩ := stepInstr_eq_ok hstep
      cases hword : conditionWord m header.op with
      | ok word => simp [hstep, hword] at h
      | error found =>
        simp only [hstep, hword] at h ⊢
        cases h
        obtain ⟨refused, rfl⟩ := conditionWord_eq_error hword
        refine ⟨_, .test ?_ refused, rfl⟩
        simpa [StepTokens.step] using supported

end Generator

/-- What computes a value has nothing to patch, because only a jump can wait for its target. So
what is left of a chain of operators may stay in the code. -/
theorem Instr.Computes.not_isUnset {i : Instr} (h : i.Computes) : ¬i.isUnset := by
  obtain ⟨args, rfl | rfl⟩ := h <;> exact Instr.not_isUnset_plain args (by decide)

/-- What a refusal leaves has nothing to patch. A loop that is refused has made its first jump,
but that one goes over the step, and its target is known at once. -/
theorem Refusal.settled {m : Mnemonics} {g : Generator} {f : Form} {e : CompileError}
    {left : List Instr} (h : Refusal m g f e left) : ∀ i ∈ left, ¬i.isUnset := by
  cases h with
  | operator supported refused => exact fun i hi => (computes_of_mem_combineAll hi).not_isUnset
  | condition | strayConditional | strayLoop => simp
  | step hstep refused => simp [LoopTokens.code, Instr.not_isUnset_plain]
  | test supported refused =>
    simp [LoopTokens.code, Instr.not_isUnset_plain, (computes_advanceInstr m _ _).not_isUnset]

namespace Generator

/-- **A refused statement is confined.** The generator keeps its stacks, its notices and all its
instructions with their targets, and adds instructions that have nothing to patch. For tokens of a
form that fits, `Refusal` tells which these are. Tokens of no such form add none, and are refused
for their number, their kinds or their first word. -/
theorem refused_confined {m : Mnemonics} {g : Generator} {tokens : List Token} {e : CompileError}
    (refused : (g.addTokens m tokens).2 = some e) :
    ∃ left : List Instr,
      (g.addTokens m tokens).1 = { g with code := g.code ++ left } ∧ (∀ i ∈ left, ¬i.isUnset) ∧
      ((∃ f : Form, f.Fits ∧ f.tokens = tokens ∧ Refusal m g f e left) ∨
        (left = [] ∧ (∀ f : Form, f.Fits → f.tokens ≠ tokens) ∧
          (e.category = .arity ∨ e.category = .unrecognizedStatement))) := by
  -- Either the reader has accepted the tokens, and the generator refused the form, or the reader
  -- refused them and the generator has not even started.
  cases hread : Statement.ofTokens tokens with
  | ok s =>
    obtain ⟨f, fits, rfl, rfl⟩ := Statement.ofTokens_eq_ok_iff.mp hread
    simp only [addTokens, hread] at refused ⊢
    obtain ⟨left, refusal, hleft⟩ := exists_refusal refused
    exact ⟨left, hleft, refusal.settled, Or.inl ⟨f, fits, rfl, refusal⟩⟩
  | error found =>
    simp only [addTokens, hread] at refused ⊢
    cases refused
    refine ⟨[], by simp, by simp, Or.inr ⟨rfl, fun f fits heq => ?_, ?_⟩⟩
    · -- Tokens of a form that fits are always read.
      rw [← heq, Statement.ofTokens_of_fits fits] at hread
      cases hread
    · exact Statement.category_of_ofTokens hread

/-- Inside of a conditional, a loop with an operator that no step has and one that no test has.
The step is looked at first, so two instructions are left behind the conditional, and its jump
waits as before. -/
theorem refused_confined_of_loop :
    let opened := (({} : Generator).addTokens .standard
      [⟨.keyword, "if", 1⟩, ⟨.name, "a", 1⟩, ⟨.operator, "<", 1⟩, ⟨.name, "b", 1⟩]).1
    let tokens : List Token :=
      [⟨.keyword, "for", 2⟩, ⟨.name, "i", 2⟩, ⟨.operator, "=", 2⟩, ⟨.value, "0", 2⟩,
        ⟨.name, "to", 2⟩, ⟨.name, "i", 2⟩, ⟨.operator, "+", 2⟩, ⟨.value, "9", 2⟩, ⟨.name, "i", 2⟩,
        ⟨.operator, "=", 2⟩, ⟨.name, "i", 2⟩, ⟨.operator, "=", 2⟩, ⟨.value, "2", 2⟩]
    let left : List Instr := [.plain .set ["i", "0"], .jumpTo 5 ["always"]]
    opened.conditionals = [⟨1, .conditional, 1⟩] ∧
      opened.addTokens .standard tokens =
        ({ opened with code := opened.code ++ left }, some (.unsupportedOperator "=" 2)) ∧
      ∃ f : Form, f.Fits ∧ f.tokens = tokens ∧
        Refusal .standard opened f (.unsupportedOperator "=" 2) left := by
  intro opened tokens left
  have computed : opened.addTokens .standard tokens =
      ({ opened with code := opened.code ++ left }, some (.unsupportedOperator "=" 2)) := by
    decide
  obtain ⟨found, hfound, -, refusal⟩ := refused_confined (congrArg Prod.snd computed)
  have same : left = found := by
    rw [computed] at hfound
    exact List.append_cancel_left (congrArg Generator.code hfound)
  refine ⟨by decide, computed, ?_⟩
  rw [same]
  refine refusal.resolve_right ?_
  rintro ⟨-, -, category⟩
  simp [CompileError.category] at category

end Generator

end Tickscript
