import Tickscript.Proofs.Generator.Relocation

/-!
# `Tickscript.Proofs.Source.Lines`: lines are for messages only

Tokens and statements carry lines. A line shows in the text of an error and in a notice, and
nowhere else: sources whose fragments have the same texts compile to the same code
(`compileCode_of_same_texts`), whatever their line breaks are.

`unplaced` takes the lines away. Reading a statement from tokens without lines succeeds where
reading it from the tokens does, with the same statement up to lines (`reading_ofTokens`). Blocks,
sizes and code of a statement do not depend on its lines, so neither does the layout
(`layout_unplaced`).
-/

set_option autoImplicit false

namespace Tickscript

/-! ### Taking lines away -/

/-- A token without its line. The kind and the text stay, and they are all that code is made
from. -/
def Token.unplaced (t : Token) : Token :=
  { t with line := 0 }

/-- A test without lines. Only its operator has one. -/
def Test.unplaced (test : Test) : Test :=
  { test with op := test.op.unplaced }

/-- A step without lines. Only its operator has one. -/
def Step.unplaced (step : Step) : Step :=
  { step with op := step.op.unplaced }

/-- A statement without lines. The lines of openers and closers are for the errors about their
blocks, that of an ignored statement for its notice. -/
def Statement.unplaced : Statement → Statement
  | .ignored _ words => .ignored 0 words
  | .assign dest first rest => .assign dest first (rest.map fun pair => (pair.1.unplaced, pair.2))
  | .openConditional _ test => .openConditional 0 test.unplaced
  | .closeConditional _ => .closeConditional 0
  | .openLoop _ counter start test step =>
    .openLoop 0 counter start test.unplaced (step.map Step.unplaced)
  | .closeLoop _ => .closeLoop 0
  | .print value device => .print value device

/-- A token keeps its text. -/
@[simp] theorem Token.text_unplaced (t : Token) : t.unplaced.text = t.text := rfl

/-- A token keeps its kind. -/
@[simp] theorem Token.kind_unplaced (t : Token) : t.unplaced.kind = t.kind := rfl

/-- Lines are taken away once. -/
@[simp] theorem Token.unplaced_unplaced (t : Token) : t.unplaced.unplaced = t.unplaced := rfl

/-- The lines of a step are taken away once. -/
@[simp] theorem Step.unplaced_unplaced (step : Step) :
    step.unplaced.unplaced = step.unplaced := rfl

/-! ### Reading tokens without lines -/

/-- Two checks of one condition differ in the error only. All four checks of a token are of this
form, with a line in the error. -/
theorem toOption_check {ε : Type} (p : Prop) [Decidable p] (e e' : ε) :
    (if p then .ok () else .error e : Except ε Unit).toOption =
      (if p then .ok () else .error e' : Except ε Unit).toOption := by
  by_cases h : p
  · rw [if_pos h, if_pos h]
  · rw [if_neg h, if_neg h]
    rfl

namespace Token

/-- Whether a token can be read does not depend on its line. -/
theorem requireOperand_unplaced (t : Token) :
    t.unplaced.requireOperand.toOption = t.requireOperand.toOption :=
  toOption_check _ _ _

/-- Whether a token is a name does not depend on its line. -/
theorem requireName_unplaced (t : Token) :
    t.unplaced.requireName.toOption = t.requireName.toOption :=
  toOption_check _ _ _

/-- Whether a token is an operator does not depend on its line. -/
theorem requireOperator_unplaced (t : Token) :
    t.unplaced.requireOperator.toOption = t.requireOperator.toOption :=
  toOption_check _ _ _

/-- Whether a token is an equals sign does not depend on its line. -/
theorem requireEquals_unplaced (t : Token) :
    t.unplaced.requireEquals.toOption = t.requireEquals.toOption :=
  toOption_check _ _ _

end Token

namespace Statement

/-- What has been read, without lines and without the reason of a refusal. The reason would show a
line. -/
def reading (r : Except CompileError Statement) : Option Statement :=
  r.toOption.map unplaced

/-- Tokens are put into pairs by their number. -/
theorem pairUp?_unplaced (tokens : List Token) :
    pairUp? (tokens.map Token.unplaced) =
      (pairUp? tokens).map (List.map fun pair => (pair.1.unplaced, pair.2.unplaced)) := by
  fun_induction pairUp? tokens with
  | case1 => rfl
  | case2 t => rfl
  | case3 a b rest ih =>
    rw [List.map_cons, List.map_cons, pairUp?, ih]
    cases pairUp? rest with
    | none => rfl
    | some pairs => rfl

/-- A check of all pairs, if the check of one does not look at lines. Operands and operators of a
chain are checked in this way. -/
theorem forM_unplaced (check : Token × Token → Except CompileError Unit)
    (h : ∀ pair, (check (pair.1.unplaced, pair.2.unplaced)).toOption = (check pair).toOption)
    (pairs : List (Token × Token)) :
    ((pairs.map fun pair => (pair.1.unplaced, pair.2.unplaced)).forM check).toOption =
      (pairs.forM check).toOption := by
  induction pairs with
  | nil => rfl
  | cons pair pairs ih =>
    show (check _ >>= fun _ => List.forM _ check).toOption =
        (check pair >>= fun _ => pairs.forM check).toOption
    rw [toOption_bind, toOption_bind, h, ih]

/-- An assignment is read alike. Its checks succeed on both sides or on none, one after the
other. -/
theorem reading_ofAssignment (dest : Token) (expression : List Token) :
    reading (ofAssignment dest.unplaced (expression.map Token.unplaced)) =
      reading (ofAssignment dest expression) := by
  cases expression with
  | nil => rfl
  | cons first rest =>
    simp only [ofAssignment, List.map_cons, pairUp?_unplaced]
    cases pairUp? rest with
    | none => rfl
    | some pairs =>
      have operands := forM_unplaced (fun pair => pair.2.requireOperand)
        (fun pair => pair.2.requireOperand_unplaced) pairs
      have operators := forM_unplaced (fun pair => pair.1.requireOperator)
        (fun pair => pair.1.requireOperator_unplaced) pairs
      -- The three checks come in one order on both sides, so they can be compared one by one.
      simp only [Option.map_some, reading, toOption_bind, Token.requireOperand_unplaced, operands,
        operators, Option.map_bind]
      simp [toOption_pure, unplaced, Function.comp_def]

/-- A statement that starts with a name is read alike: it is an assignment, or it is ignored with
the same words. -/
theorem reading_ofNameLed (dest : Token) (rest : List Token) :
    reading (ofNameLed dest.unplaced (rest.map Token.unplaced)) =
      reading (ofNameLed dest rest) := by
  have words : ∀ tokens : List Token,
      (tokens.map Token.unplaced).map (·.text) = tokens.map (·.text) := by
    intro tokens
    rw [List.map_map]
    rfl
  cases rest with
  | nil => rfl
  | cons second expression =>
    simp only [ofNameLed, List.map_cons, Token.text_unplaced, words]
    split
    · exact reading_ofAssignment dest expression
    · rfl

/-- A conditional is read alike, whatever lines it is given itself. -/
theorem reading_ofConditional (line line' : Int) (tokens : List Token) :
    reading (ofConditional line (tokens.map Token.unplaced)) =
      reading (ofConditional line' tokens) := by
  unfold ofConditional
  rcases tokens with _ | ⟨left, _ | ⟨op, _ | ⟨right, _ | ⟨more, rest⟩⟩⟩⟩
  -- With any other number of tokens it is refused on both sides.
  case cons.cons.cons.nil =>
    simp only [List.map_cons, List.map_nil, reading, toOption_bind, Token.requireOperand_unplaced,
      Option.map_bind]
    simp [toOption_pure, unplaced, Function.comp_def, Test.unplaced]
  all_goals rfl

/-- A print is read alike. -/
theorem reading_ofPrint (line line' : Int) (tokens : List Token) :
    reading (ofPrint line (tokens.map Token.unplaced)) = reading (ofPrint line' tokens) := by
  unfold ofPrint
  rcases tokens with _ | ⟨value, _ | ⟨device, _ | ⟨more, rest⟩⟩⟩
  case cons.cons.nil =>
    simp only [List.map_cons, List.map_nil, reading, toOption_bind, Token.requireOperand_unplaced,
      Token.text_unplaced]
  all_goals rfl

/-- A separator is told by the kind of the token behind it, so it is dropped alike. -/
theorem dropSeparator_unplaced (tokens : List Token) :
    dropSeparator (tokens.map Token.unplaced) = (dropSeparator tokens).map Token.unplaced := by
  rcases tokens with _ | ⟨first, _ | ⟨second, rest⟩⟩
  case cons.cons =>
    by_cases h : second.kind = .operator
    · simp [dropSeparator, h]
    · simp [dropSeparator, h]
  all_goals rfl

/-- The shape of a step without lines. The tokens of a step keep their places. -/
def StepShape.unplaced : StepShape → StepShape
  | .absent => .absent
  | .present dest equals left op right =>
    .present dest.unplaced equals.unplaced left.unplaced op.unplaced right.unplaced
  | .wrong => .wrong

/-- The shape of a step depends on the number of its tokens only. -/
theorem StepShape.of_unplaced (tokens : List Token) :
    StepShape.of (tokens.map Token.unplaced) = (StepShape.of tokens).unplaced := by
  rcases tokens with _ |
    ⟨a, _ | ⟨b, _ | ⟨c, _ | ⟨d, _ | ⟨e, _ | ⟨f, _ | ⟨more, rest⟩⟩⟩⟩⟩⟩⟩ <;> rfl

/-- A step is read alike, with lines in its refusals only. -/
theorem StepShape.read_unplaced (line line' : Int) (shape : StepShape) :
    (shape.unplaced.read line).toOption =
      (shape.read line').toOption.map (Option.map Step.unplaced) := by
  cases shape with
  | absent => rfl
  | wrong => rfl
  | present dest equals left op right =>
    simp only [read, StepShape.unplaced, toOption_bind, Token.requireName_unplaced,
      Token.requireEquals_unplaced, Token.requireOperand_unplaced, Token.requireOperator_unplaced,
      Option.map_bind]
    simp [toOption_pure, Function.comp_def, Step.unplaced]

/-- The parts of a loop are read alike. -/
theorem reading_ofLoopParts (line line' : Int) (counter equals start left op right : Token)
    (shape : StepShape) :
    reading
      (ofLoopParts line counter.unplaced equals.unplaced start.unplaced left.unplaced op.unplaced
        right.unplaced shape.unplaced) =
      reading (ofLoopParts line' counter equals start left op right shape) := by
  simp only [ofLoopParts, reading, toOption_bind, Token.requireName_unplaced,
    Token.requireEquals_unplaced, Token.requireOperand_unplaced,
    StepShape.read_unplaced line line', Option.map_bind]
  simp [toOption_pure, unplaced, Function.comp_def, Test.unplaced, Option.bind_map]

/-- A loop is read alike. The separator is dropped and the shape of the step is found before any
token is checked. -/
theorem reading_ofLoop (line line' : Int) (tokens : List Token) :
    reading (ofLoop line (tokens.map Token.unplaced)) = reading (ofLoop line' tokens) := by
  rcases tokens with _ |
    ⟨counter, _ | ⟨equals, _ | ⟨start, _ | ⟨first, _ | ⟨second, _ | ⟨third, more⟩⟩⟩⟩⟩⟩
  case cons.cons.cons.cons.cons.cons =>
    have separated := dropSeparator_unplaced (first :: second :: third :: more)
    simp only [List.map_cons] at separated
    simp only [ofLoop, List.map_cons, separated]
    -- second :: third :: more) with _ | :: What is left without the separator is looked at once
    -- more for its length.
    rcases dropSeparator (first :: second :: third :: more) with _ |
      ⟨left, _ | ⟨op, _ | ⟨right, rest⟩⟩⟩
    case cons.cons.cons =>
      simp only [List.map_cons, StepShape.of_unplaced]
      cases StepShape.of rest with
      | absent => exact reading_ofLoopParts line line' counter equals start left op right .absent
      | present dest equals' left' op' right' =>
        exact reading_ofLoopParts line line' counter equals start left op right
          (.present dest equals' left' op' right')
      | wrong => rfl
    all_goals rfl
  all_goals rfl

/-- A closer is read alike if it is the same up to lines, and refused alike if anything follows
it. -/
theorem reading_ofCloser (block : Block) (line line' : Int) {s s' : Statement}
    (h : s.unplaced = s'.unplaced) (tokens : List Token) :
    reading (ofCloser block line s (tokens.map Token.unplaced)) =
      reading (ofCloser block line' s' tokens) := by
  cases tokens with
  | nil => exact congrArg some h
  | cons t rest => rfl

/-- A choice that does not depend on lines is read alike if both ways are. The keywords are told
apart by such choices. -/
theorem reading_ite (p : Prop) [Decidable p] {a a' b b' : Except CompileError Statement}
    (ha : reading a = reading a') (hb : reading b = reading b') :
    reading (if p then a else b) = reading (if p then a' else b') := by
  by_cases h : p
  · rwa [if_pos h, if_pos h]
  · rwa [if_neg h, if_neg h]

/-- **Reading does not look at lines.** What is read from tokens without lines is what is read
from the tokens, and it is refused where that is refused. There is one case for each kind of the
first token, and for each keyword. -/
theorem reading_ofTokens (tokens : List Token) :
    reading (ofTokens (tokens.map Token.unplaced)) = reading (ofTokens tokens) := by
  cases tokens with
  | nil => rfl
  | cons head rest =>
    simp only [ofTokens, List.map_cons, Token.kind_unplaced]
    cases head.kind with
    | name => exact reading_ofNameLed head rest
    | keyword =>
      refine reading_ite _ (reading_ofConditional _ _ rest) ?_
      refine reading_ite _ (reading_ofCloser .conditional _ _ (by rfl) rest) ?_
      refine reading_ite _ (reading_ofLoop _ _ rest) ?_
      refine reading_ite _ (reading_ofCloser .loop _ _ (by rfl) rest) ?_
      exact reading_ite _ (reading_ofPrint _ _ rest) rfl
    | operator => rfl
    | value => rfl

/-- A statement that can be read can be read from tokens with other lines, as the same statement
up to lines. -/
theorem exists_ofTokens_of_same {tokens others : List Token}
    (same : tokens.map Token.unplaced = others.map Token.unplaced) {s : Statement}
    (h : ofTokens tokens = .ok s) : ∃ t, ofTokens others = .ok t ∧ t.unplaced = s.unplaced := by
  have agree : reading (ofTokens others) = reading (ofTokens tokens) := by
    rw [← reading_ofTokens others, ← same, reading_ofTokens]
  rw [h] at agree
  cases hothers : ofTokens others with
  | error e =>
    rw [hothers] at agree
    cases agree
  | ok t =>
    rw [hothers] at agree
    exact ⟨t, rfl, Option.some.inj agree⟩

/-! ### The layout without lines -/

/-- A statement opens the same block. -/
@[simp] theorem opens_unplaced (s : Statement) : s.unplaced.opens = s.opens := by
  cases s <;> rfl

/-- A statement closes the same block. -/
@[simp] theorem closes_unplaced (s : Statement) : s.unplaced.closes = s.closes := by
  cases s <;> rfl

/-- A statement has as many instructions. -/
@[simp] theorem size_unplaced (s : Statement) : s.unplaced.size = s.size := by
  cases s with
  | assign dest first rest => simp [unplaced, size]
  | _ => rfl

/-- A statement is supported by the same tables, since operators are looked up by their texts. -/
theorem supported_unplaced {m : Mnemonics} {s : Statement} :
    s.unplaced.Supported m ↔ s.Supported m := by
  cases s with
  | assign dest first rest => exact List.forall_mem_map
  | openLoop line counter start test step =>
    cases step with
    | none => rfl
    | some step =>
      simp [unplaced, Supported, Mnemonics.Supports, Mnemonics.SupportsTest, Test.unplaced,
        Step.unplaced]
  | _ => rfl

/-- The code of a statement does not depend on its lines. Of a token only the text goes into the
code. -/
theorem code_unplaced (m : Mnemonics) (own : Nat) (partner : Option Nat) (s : Statement) :
    s.unplaced.code m own partner = s.code m own partner := by
  have chain : ∀ (rest : List (Token × String)) (dest left : String),
      combineAll m dest left (rest.map fun pair => (pair.1.unplaced, pair.2)) =
        combineAll m dest left rest := by
    intro rest
    induction rest with
    | nil => intros; rfl
    | cons pair rest ih =>
      intro dest left
      rw [List.map_cons, combineAll, combineAll, ih]
      rfl
  cases s with
  | assign dest first rest =>
    simp only [unplaced, code, List.isEmpty_map, chain]
  | openLoop line counter start test step =>
    cases step with
    | none => rfl
    | some step => rfl
  | _ => rfl

end Statement

/-- Statements stand at the same addresses. -/
theorem address_unplaced (ss : List Statement) :
    address (ss.map Statement.unplaced) = address ss := by
  funext k
  simp only [address, ← List.map_take, List.map_map]
  congr 2
  funext s
  exact s.size_unplaced

/-- The same openers are left at each place. -/
theorem isUntaken_unplaced (ss : List Statement) :
    isUntaken (ss.map Statement.unplaced) = isUntaken ss := by
  funext taken b k
  simp only [isUntaken, List.getElem?_map, Option.bind_map, Function.comp_def,
    Statement.opens_unplaced]

/-- Blocks are paired alike. By induction on how far the statements have been looked at. -/
theorem spans_unplaced (ss : List Statement) : spans (ss.map Statement.unplaced) = spans ss := by
  have upTo : ∀ n, spansUpTo (ss.map Statement.unplaced) n = spansUpTo ss n := by
    intro n
    induction n with
    | zero => rfl
    | succ j ih =>
      have closer : (ss.map Statement.unplaced)[j]?.bind Statement.closes =
          ss[j]?.bind Statement.closes := by
        simp only [List.getElem?_map, Option.bind_map, Function.comp_def,
          Statement.closes_unplaced]
      -- A closer looks for the nearest opener of its kind, and kinds are kept.
      have nearest : nearestSpan (ss.map Statement.unplaced) = nearestSpan ss := by
        funext taken i b
        simp only [nearestSpan, isUntaken_unplaced]
      simp only [spansUpTo, ih, closer, nearest]
  rw [spans, spans, List.length_map, upTo]

/-- **The layout does not depend on lines.** Sizes give the same addresses, blocks the same
partners, and with both each statement has the same code. -/
theorem layout_unplaced (m : Mnemonics) (ss : List Statement) :
    layout m (ss.map Statement.unplaced) = layout m ss := by
  -- The addresses and partners are general here: they are known for the whole program only.
  have pass : ∀ (addr : Nat → Nat) (partner : Nat → Option Nat) (k : Nat),
      layFrom m addr partner k (ss.map Statement.unplaced) = layFrom m addr partner k ss := by
    intro addr partner
    induction ss with
    | nil => intro k; rfl
    | cons s ss ih =>
      intro k
      rw [List.map_cons, layFrom, layFrom, Statement.code_unplaced, ih]
  simp only [layout, body, address_unplaced, spans_unplaced, pass]

/-- Openers and closers are in the same order. -/
theorem bracketed_unplaced {b : Block} {ss : List Statement} :
    Bracketed b (ss.map Statement.unplaced) ↔ Bracketed b ss := by
  have openers : ∀ ss : List Statement,
      openerCount b (ss.map Statement.unplaced) = openerCount b ss := by
    intro ss
    simp [openerCount, List.countP_map, Function.comp_def]
  have closers : ∀ ss : List Statement,
      closerCount b (ss.map Statement.unplaced) = closerCount b ss := by
    intro ss
    simp [closerCount, List.countP_map, Function.comp_def]
  constructor
  · rintro ⟨prefixes, totals⟩
    simp only [← List.map_take, openers, closers] at prefixes totals
    exact ⟨prefixes, totals⟩
  · rintro ⟨prefixes, totals⟩
    constructor
    · simpa only [← List.map_take, openers, closers] using prefixes
    · simpa only [openers, closers] using totals

/-- Statements are a program exactly if they are one without their lines. -/
theorem isProgram_unplaced {m : Mnemonics} {ss : List Statement} :
    IsProgram m (ss.map Statement.unplaced) ↔ IsProgram m ss := by
  constructor
  · rintro ⟨supported, bracketed⟩
    refine ⟨fun s hs => ?_, fun b => bracketed_unplaced.mp (bracketed b)⟩
    exact Statement.supported_unplaced.mp (supported _ (List.mem_map_of_mem hs))
  · rintro ⟨supported, bracketed⟩
    refine ⟨fun s hs => ?_, fun b => bracketed_unplaced.mpr (bracketed b)⟩
    obtain ⟨t, ht, rfl⟩ := List.mem_map.mp hs
    exact Statement.supported_unplaced.mpr (supported t ht)

/-- Statements that differ in lines make programs alike, with the same code. Both are compared
with what they have in common. -/
theorem IsProgram.of_same {m : Mnemonics} {ss others : List Statement} (h : IsProgram m ss)
    (same : others.map Statement.unplaced = ss.map Statement.unplaced) :
    IsProgram m others ∧ layout m others = layout m ss := by
  constructor
  · rw [← isProgram_unplaced, same]
    exact isProgram_unplaced.mpr h
  · rw [← layout_unplaced, same, layout_unplaced]

/-! ### Sources with the same texts -/

/-- The fragments of statements are read as the statements `ss`: fragment by fragment as tokens,
and then list by list as statements. -/
def ReadsAs (v : Vocabulary) (fragments : List (List Fragment)) (ss : List Statement) : Prop :=
  ∃ statements, fragments.mapM (·.mapM (Token.ofFragment v)) = .ok statements ∧
    statements.mapM Statement.ofTokens = .ok ss

/-- A source compiles exactly if its fragments are read as a program, and it compiles to the
layout. The generator is no longer mentioned from here on. -/
theorem compileCode_eq_ok_iff {v : Vocabulary} {m : Mnemonics} {source : String}
    {code : List Instr} :
    (compileCode v m source).result = .ok code ↔
      ∃ ss, ReadsAs v (Fragment.statements v source) ss ∧ IsProgram m ss ∧
        code = layout m ss := by
  unfold compileCode Token.parse ReadsAs
  cases (Fragment.statements v source).mapM (·.mapM (Token.ofFragment v)) with
  | error e =>
    refine iff_of_false nofun ?_
    rintro ⟨ss, ⟨statements, h, -⟩, -⟩
    cases h
  | ok statements =>
    simp only [compileTokens_eq_ok_iff, Except.ok.injEq, exists_eq_left']

/-- Fragments are read one list after the other, since a statement does not depend on those
before. -/
theorem ReadsAs.append {v : Vocabulary} {before after : List (List Fragment)}
    {xs ys : List Statement} (hx : ReadsAs v before xs) (hy : ReadsAs v after ys) :
    ReadsAs v (before ++ after) (xs ++ ys) := by
  obtain ⟨first, hfirst, hxs⟩ := hx
  obtain ⟨second, hsecond, hys⟩ := hy
  refine ⟨first ++ second, ?_, ?_⟩
  · rw [List.mapM_append, hfirst, hsecond]
    rfl
  · rw [List.mapM_append, hxs, hys]
    rfl

/-- The texts of fragments, statement by statement. This is a source without its lines. -/
def textsOf (fragments : List (List Fragment)) : List (List String) :=
  fragments.map (·.map (·.text))

/-- Fragments with the same texts are read as the same statements, up to lines. A fragment gets
the same kind, and statements are read from tokens that are the same up to lines. -/
theorem ReadsAs.of_same_texts {v : Vocabulary} {fragments others : List (List Fragment)}
    {ss : List Statement} (h : ReadsAs v fragments ss)
    (same : textsOf fragments = textsOf others) :
    ∃ ss', ReadsAs v others ss' ∧ ss'.map Statement.unplaced = ss.map Statement.unplaced := by
  obtain ⟨statements, hparse, hread⟩ := h
  -- The kind of a fragment is that of its text.
  have token : ∀ (f g : Fragment) (t : Token), f.text = g.text → Token.ofFragment v f = .ok t →
      ∃ t', Token.ofFragment v g = .ok t' ∧ t'.unplaced = t.unplaced := by
    intro f g t htext ht
    simp only [Token.ofFragment, ← htext] at ht ⊢
    cases hkind : TokenKind.ofText? v f.text with
    | none => simp [hkind] at ht
    | some kind =>
      simp only [hkind, Except.ok.injEq] at ht
      subst ht
      exact ⟨_, rfl, rfl⟩
  obtain ⟨statements', hparse', hunplaced⟩ := exists_mapM_of_same
    (fun fs gs ts htexts => exists_mapM_of_same token htexts) same hparse
  obtain ⟨ss', hread', hss⟩ := exists_mapM_of_same
    (fun ts ts' s hts => Statement.exists_ofTokens_of_same hts) hunplaced.symm hread
  exact ⟨ss', ⟨statements', hparse', hread'⟩, hss⟩

/-- **Sources with the same texts compile to the same code**, on whatever lines these texts stand.
Blanks and line breaks between lexemes are therefore without effect on the code. -/
theorem compileCode_of_same_texts {v : Vocabulary} {m : Mnemonics} {source other : String}
    (same : textsOf (Fragment.statements v source) = textsOf (Fragment.statements v other))
    {code : List Instr} (h : (compileCode v m source).result = .ok code) :
    (compileCode v m other).result = .ok code := by
  obtain ⟨ss, reads, program, rfl⟩ := compileCode_eq_ok_iff.mp h
  obtain ⟨ss', reads', hss⟩ := reads.of_same_texts same
  obtain ⟨program', hlayout⟩ := program.of_same hss
  exact compileCode_eq_ok_iff.mpr ⟨ss', reads', program', hlayout.symm⟩

/-- The same for program texts, which are written from the code alone. -/
theorem compile_of_same_texts {source other : String}
    (same : textsOf (Fragment.statements .standard source) =
      textsOf (Fragment.statements .standard other))
    {program : String} (h : compile source = .ok program) : compile other = .ok program := by
  cases hcode : (compileCode .standard .standard source).result with
  | error fault => simp [compile, compileText, hcode] at h
  | ok code =>
    have hother := compileCode_of_same_texts same hcode
    simp only [compile, compileText, hcode] at h
    simpa only [compile, compileText, hother] using h

end Tickscript
