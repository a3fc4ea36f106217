import Tickscript.Proofs.Except
import Tickscript.Proofs.Generator.Translation

/-!
# `Tickscript.Proofs.Generator.Progress`: what the generator takes next

`Translation` says what a generator has done when it has accepted a statement. Here is the other
direction: which statements it accepts. A supported statement that closes no block is accepted in
every state (`exists_add_of_supported`). A closer is accepted exactly if a block of its kind is
open (`exists_add_of_open`, `add_of_stray`). `add_eq_none_iff` says both at once. So what a
generator takes next depends on the stacks and on nothing else that it has done; in particular it
never reads its notices (`generate_outcome`).

`addAll_cases` cuts a run through many statements at the first one that is refused.
-/

set_option autoImplicit false

namespace Tickscript

/-! ### Supported statements are accepted -/

/-- A supported operator has its instruction: a `sensor` for the operator that reads a property,
and otherwise an `op` with the word of the table. -/
theorem computeInstr_of_supports {m : Mnemonics} {op : Token} (h : m.Supports op)
    (dest left right : String) :
    computeInstr m dest left op right = .ok (combineInstr m dest left op right) := by
  unfold computeInstr combineInstr operationWord
  by_cases hsensor : op.text = sensorOperator
  · simp only [hsensor, if_true]
  · obtain ⟨word, hword⟩ := Option.isSome_iff_exists.mp (h.resolve_left hsensor)
    simp only [hsensor, if_false, hword, Option.getD_some]

/-- A comparison of the table has its condition word. A test wants more than an operation does:
the token must be an operator, the table must have it, and it must compare. -/
theorem conditionWord_of_supportsTest {m : Mnemonics} {op : Token} (h : m.SupportsTest op) :
    conditionWord m op = .ok (operationWord m op) := by
  obtain ⟨hkind, hcompare, known⟩ := h
  obtain ⟨word, hword⟩ := Option.isSome_iff_exists.mp known
  simp [conditionWord, Token.requireOperator, operationWord, hkind, hword, hcompare, bind,
    Except.bind, pure, Except.pure]

/-- A chain of supported operators has no error. The induction is on the chain, with any operand
to start from, because the second instruction starts from the result of the first. -/
theorem chainInstrs_of_supports {m : Mnemonics} {dest left : String}
    {rest : List (Token × String)} (h : ∀ pair ∈ rest, m.Supports pair.1) :
    chainInstrs m dest left rest = (combineAll m dest left rest, none) := by
  induction rest generalizing left with
  | nil => rfl
  | cons pair rest ih =>
    have others : ∀ other ∈ rest, m.Supports other.1 := by
      intro other hother
      exact h other (List.mem_cons_of_mem _ hother)
    simp only [chainInstrs, computeInstr_of_supports (h pair List.mem_cons_self), ih others,
      combineAll]

/-- A supported step has its instruction, and a step that is not written out is always
supported. -/
theorem stepInstr_of_supports {m : Mnemonics} {step : Option Step}
    (h : ∀ s ∈ step, m.Supports s.op) (counter : String) :
    stepInstr m counter step = .ok (advanceInstr m counter step) := by
  cases step with
  | none => rfl
  | some step => exact computeInstr_of_supports (h step rfl) step.dest step.left step.right

/-- The line on which a block is closed. It is what an error about a stray closer names; other
statements have none. -/
def Statement.closingLine : Statement → Int
  | .closeConditional line => line
  | .closeLoop line => line
  | _ => 0

namespace Generator

/-- A supported statement that closes nothing is accepted, whatever the generator has done before.
There is one case for each form, and in each the instructions are made without an error. -/
theorem exists_add_of_supported {m : Mnemonics} {s : Statement} (h : s.Supported m)
    (hcloses : s.closes = none) (g : Generator) : ∃ after, g.add m s = (after, none) := by
  cases s with
  | ignored line words => exact ⟨_, rfl⟩
  | assign dest first rest =>
    cases rest with
    | nil => exact ⟨_, rfl⟩
    | cons pair rest =>
      have made : assignInstrs m dest first (pair :: rest) =
          (combineAll m dest first (pair :: rest), none) := chainInstrs_of_supports h
      exact ⟨_, by rw [add, made]⟩
  | openConditional line test =>
    simp only [add, Generator.openConditional, conditionWord_of_supportsTest h]
    exact ⟨_, rfl⟩
  | openLoop line counter start test step =>
    simp only [add, Generator.openLoop, loopInstrs, stepInstr_of_supports h.1,
      conditionWord_of_supportsTest h.2]
    exact ⟨_, rfl⟩
  | print value device => exact ⟨_, rfl⟩
  | closeConditional line => cases hcloses
  | closeLoop line => cases hcloses

/-- A closer is accepted if a block of its kind is open. Which block that is does not matter, and
neither does the table. -/
theorem exists_add_of_open {s : Statement} {b : Block} (hcloses : s.closes = some b)
    {g : Generator} (hopen : g.stack b ≠ []) (m : Mnemonics) :
    ∃ after, g.add m s = (after, none) := by
  obtain ⟨jump, rest, top⟩ := List.exists_cons_of_ne_nil hopen
  cases s with
  | closeConditional line =>
    cases hcloses
    have top : g.conditionals = jump :: rest := top
    simp only [add, Generator.closeConditional, top]
    exact ⟨_, rfl⟩
  | closeLoop line =>
    cases hcloses
    have top : g.loops = jump :: rest := top
    simp only [add, Generator.closeLoop, top]
    exact ⟨_, rfl⟩
  | _ => cases hcloses

/-- A closer is refused if no block of its kind is open. The generator stays as it was, and the
error names the kind and the line of the closer. -/
theorem add_of_stray {s : Statement} {b : Block} (hcloses : s.closes = some b) {g : Generator}
    (hclosed : g.stack b = []) (m : Mnemonics) :
    g.add m s = (g, some (.unmatchedCloser b s.closingLine)) := by
  cases s with
  | closeConditional line =>
    cases hcloses
    have hclosed : g.conditionals = [] := hclosed
    simp only [add, Generator.closeConditional, hclosed]
    rfl
  | closeLoop line =>
    cases hcloses
    have hclosed : g.loops = [] := hclosed
    simp only [add, Generator.closeLoop, hclosed]
    rfl
  | _ => cases hcloses

/-- A statement is accepted exactly if its operators are supported and, for a closer, a block of
its kind is open. The first direction reads off what the lemmas about accepted statements say, and
the second one puts the lemmas above together. -/
theorem add_eq_none_iff {m : Mnemonics} {g : Generator} {s : Statement} :
    (g.add m s).2 = none ↔ s.Supported m ∧ ∀ b, s.closes = some b → g.stack b ≠ [] := by
  constructor
  · intro h
    have accepted : g.add m s = ((g.add m s).1, none) := Prod.ext rfl h
    cases hcloses : s.closes with
    | some b =>
      obtain ⟨supported, jump, closed⟩ := add_closer hcloses accepted
      refine ⟨supported, ?_⟩
      rintro _ ⟨rfl⟩
      rw [closed.stack_self]
      exact List.cons_ne_nil _ _
    -- An opener and a plain statement ask nothing of the stacks.
    | none =>
      refine ⟨?_, nofun⟩
      cases hopens : s.opens with
      | some b => exact (add_opener hopens accepted).1
      | none => exact (add_plain hopens hcloses accepted).1
  · rintro ⟨supported, hopen⟩
    cases hcloses : s.closes with
    | some b =>
      obtain ⟨after, h⟩ := exists_add_of_open hcloses (hopen b hcloses) m
      rw [h]
    | none =>
      obtain ⟨after, h⟩ := exists_add_of_supported supported hcloses g
      rw [h]

/-! ### A run through all statements -/

/-- Statements are added one after the other until one is refused. In the second case, `before`
were accepted, `s` was refused with the error of the whole run, and `rest` was not looked at. -/
theorem addAll_cases {m : Mnemonics} {g : Generator} {statements : List (List Token)}
    {ss : List Statement} (h : statements.mapM Statement.ofTokens = .ok ss) :
    (∃ after, g.addAll m statements = (after, none) ∧ Adds m g ss after) ∨
      ∃ before s rest mid after e, ss = before ++ s :: rest ∧ Adds m g before mid ∧
        mid.add m s = (after, some e) ∧ g.addAll m statements = (after, some e) := by
  induction statements generalizing g ss with
  | nil =>
    cases h
    exact Or.inl ⟨g, rfl, .nil g⟩
  | cons tokens statements ih =>
    rw [List.mapM_cons] at h
    obtain ⟨s, hs, h⟩ := bind_eq_ok h
    obtain ⟨ss, hss, h⟩ := bind_eq_ok h
    cases h
    cases hadd : g.add m s with
    | mk reached outcome =>
      have first : g.addTokens m tokens = (reached, outcome) := by
        rw [addTokens, hs]
        exact hadd
      cases outcome with
      -- The first statement is refused, so nothing has been added before it.
      | some e =>
        refine Or.inr ⟨[], s, ss, g, reached, e, rfl, .nil g, hadd, ?_⟩
        rw [addAll, first]
      | none =>
        have goes : g.addAll m (tokens :: statements) = reached.addAll m statements := by
          rw [addAll, first]
        rw [goes]
        rcases ih (g := reached) hss with
          ⟨after, hall, adds⟩ | ⟨before, t, rest, mid, after, e, rfl, adds, hrefused, hall⟩
        · exact Or.inl ⟨after, hall, .cons hadd adds⟩
        · exact Or.inr ⟨s :: before, t, rest, mid, after, e, rfl, .cons hadd adds, hrefused, hall⟩

/-! ### Notices are never read -/

/-- The same generator with other notices. Since the notices are never read, all generators that
differ in them only behave alike. -/
def telling (notices : List Notice) (g : Generator) : Generator :=
  { g with notices }

/-- What a statement makes of code and stacks, and whether it is refused, does not depend on the
notices. There is one case for each form, and each of them leaves the notices or adds to them. -/
theorem add_telling (m : Mnemonics) (g : Generator) (s : Statement) (notices : List Notice) :
    ∃ told, (g.telling notices).add m s = ((g.add m s).1.telling told, (g.add m s).2) := by
  obtain ⟨code, conditionals, loops, before⟩ := g
  cases s with
  | ignored line words => exact ⟨_, rfl⟩
  | assign dest first rest => exact ⟨notices, rfl⟩
  | openConditional line test =>
    simp only [add, Generator.openConditional]
    cases conditionWord m test.op with
    | error e => exact ⟨notices, rfl⟩
    | ok word => exact ⟨notices, rfl⟩
  | closeConditional line =>
    cases conditionals with
    | nil => exact ⟨notices, rfl⟩
    | cons jump rest => exact ⟨_, rfl⟩
  | openLoop line counter start test step =>
    simp only [add, Generator.openLoop, telling]
    cases loopInstrs m code.length counter start test step with
    | mk instrs outcome =>
      cases outcome with
      | some e => exact ⟨notices, rfl⟩
      | none => exact ⟨notices, rfl⟩
  | closeLoop line =>
    cases loops with
    | nil => exact ⟨notices, rfl⟩
    | cons jump rest => exact ⟨_, rfl⟩
  | print value device => exact ⟨notices, rfl⟩

/-- The same for any number of statements. The induction is on the statements, for all notices at
once, because each statement may add to them. -/
theorem addAll_telling (m : Mnemonics) (g : Generator) (statements : List (List Token))
    (notices : List Notice) :
    ∃ told, (g.telling notices).addAll m statements =
      ((g.addAll m statements).1.telling told, (g.addAll m statements).2) := by
  induction statements generalizing g notices with
  | nil => exact ⟨notices, rfl⟩
  | cons tokens rest ih =>
    have step : ∃ told, (g.telling notices).addTokens m tokens =
        ((g.addTokens m tokens).1.telling told, (g.addTokens m tokens).2) := by
      unfold addTokens
      cases Statement.ofTokens tokens with
      | ok s => exact add_telling m g s notices
      | error e => exact ⟨notices, rfl⟩
    obtain ⟨told, hstep⟩ := step
    unfold addAll
    rw [hstep]
    cases g.addTokens m tokens with
    | mk reached outcome =>
      cases outcome with
      | some e => exact ⟨told, rfl⟩
      | none => exact ih reached told

/-- A generator takes or refuses a program as a new one does, whatever it has made before. It
starts by dropping its code and its stacks, and it keeps its notices, which do not matter. -/
theorem generate_outcome (m : Mnemonics) (g : Generator) (statements : List (List Token)) :
    (g.generate m statements).2 = (generate m {} statements).2 := by
  obtain ⟨told, hall⟩ := addAll_telling m {} statements g.notices
  have start : g.reset.addAll m statements =
      ((addAll m {} statements).1.telling told, (addAll m {} statements).2) := hall
  unfold generate
  rw [start]
  have fresh : ({} : Generator).reset = {} := rfl
  rw [fresh]
  cases addAll m {} statements with
  | mk reached outcome =>
    cases outcome with
    | some e => rfl
    | none =>
      show (reached.telling told).finish.2 = reached.finish.2
      simp only [finish, telling]
      cases earliest? (reached.conditionals ++ reached.loops) with
      | none => rfl
      | some jump => rfl

end Generator

end Tickscript
