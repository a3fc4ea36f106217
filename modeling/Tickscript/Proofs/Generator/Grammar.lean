import Tickscript.Proofs.Generator.Assignment

/-!
# `Tickscript.Proofs.Generator.Grammar`: the statements that the generator accepts

A `Form` says how a list of tokens is meant: which statement it is, and which token has which part
in it. Only a loop has parts that may be missing, two separators and the step. `Form.tokens`
writes a form down, and `Form.Fits` says that each token has the kind or the text that its place
asks for.

`ofTokens_eq_ok_iff` ties the reader to the forms: it reads exactly the lists that some fitting
form is written as, and gives the statement of that form. The header of a loop is the hard case.
The reader finds the first separator by looking two tokens ahead and the second one by counting
what is left, so the same number of tokens can stand for a header with the first separator or for
one with the second. `Form.eq_of_tokens` says that there is no third way and that the two never
meet: a list of tokens is written by at most one fitting form.

What is left to the generator are operators that the table does not have and closers without a
block. `accepted_iff_admitted` puts both together.
-/

set_option autoImplicit false

namespace Tickscript

/-! ### Forms -/

/-- The tokens of a loop's step, `[separator] dest = left op right`. The separator is a word like
`step`, but the reader never looks at it. -/
structure StepTokens where
  separator : Option Token
  dest : Token
  equals : Token
  left : Token
  op : Token
  right : Token
deriving DecidableEq, Repr

/-- The tokens behind the keyword of a loop, `counter = start [separator] left op right [step]`.
Both separators and the step may be missing, independently of one another. -/
structure LoopTokens where
  counter : Token
  equals : Token
  start : Token
  separator : Option Token
  left : Token
  op : Token
  right : Token
  step : Option StepTokens
deriving DecidableEq, Repr

/-- A way to read a list of tokens: a statement, with each token at its part in it. What follows
an ignored name is not looked at, apart from its first token. -/
inductive Form where
  | ignored (dest : Token) (rest : List Token)
  | assignment (dest equals first : Token) (pairs : List (Token × Token))
  | conditional (keyword left op right : Token)
  | print (keyword value device : Token)
  | closeConditional (keyword : Token)
  | closeLoop (keyword : Token)
  | loop (keyword : Token) (header : LoopTokens)
deriving DecidableEq, Repr

/-- The tokens of a step in their order: five of them, or six with the separator. It is this
number that the reader finds a step by. -/
def StepTokens.tokens (s : StepTokens) : List Token :=
  s.separator.toList ++ [s.dest, s.equals, s.left, s.op, s.right]

/-- The tokens of a header in their order. Parts that are missing leave no gap, so the place of a
token depends on what is there before it. -/
def LoopTokens.tokens (h : LoopTokens) : List Token :=
  [h.counter, h.equals, h.start] ++ h.separator.toList ++ [h.left, h.op, h.right] ++
    (h.step.map StepTokens.tokens).getD []

/-- The tokens that a form is written as. Two forms may be written alike as long as one of them
does not fit (`Form.eq_of_tokens`). -/
def Form.tokens : Form → List Token
  | .ignored dest rest => dest :: rest
  | .assignment dest equals first pairs => assignmentTokens dest equals first pairs
  | .conditional keyword left op right => [keyword, left, op, right]
  | .print keyword value device => [keyword, value, device]
  | .closeConditional keyword => [keyword]
  | .closeLoop keyword => [keyword]
  | .loop keyword header => keyword :: header.tokens

/-- Each token of a step stands where it can. The separator may be any token. This is all that the
reader asks of a step; whether the table has the operator is not part of it. -/
structure StepTokens.Fits (s : StepTokens) : Prop where
  dest : s.dest.kind = .name
  equals : s.equals.text = "="
  left : s.left.isOperand = true
  op : s.op.kind = .operator
  right : s.right.isOperand = true

/-- Each token of a header stands where it can. The separator may be any token; it is there
exactly if the second token behind the start value is no operator. -/
structure LoopTokens.Fits (h : LoopTokens) : Prop where
  counter : h.counter.kind = .name
  equals : h.equals.text = "="
  start : h.start.isOperand = true
  separator : ∀ second ∈ h.tokens[4]?, h.separator.isSome = true ↔ second.kind ≠ .operator
  left : h.left.isOperand = true
  right : h.right.isOperand = true
  step : ∀ s ∈ h.step, s.Fits

/-- Each token of a form stands where it can. The operators of tests are left open here. The
generator looks at them, and an error about them is its own. -/
def Form.Fits : Form → Prop
  | .ignored dest rest => dest.kind = .name ∧ ∀ second ∈ rest.head?, second.text ≠ "="
  | .assignment dest equals first pairs => IsAssignment dest equals first pairs
  | .conditional keyword left _ right =>
    keyword.kind = .keyword ∧ keyword.text = "if" ∧ left.isOperand = true ∧ right.isOperand = true
  | .print keyword value device =>
    keyword.kind = .keyword ∧ keyword.text = "print(" ∧ value.isOperand = true ∧
      device.isOperand = true
  | .closeConditional keyword => keyword.kind = .keyword ∧ keyword.text = "endif"
  | .closeLoop keyword => keyword.kind = .keyword ∧ keyword.text = "endfor"
  | .loop keyword header => keyword.kind = .keyword ∧ keyword.text = "for" ∧ header.Fits

/-! Whether a form fits can be found out by looking at its tokens. -/

/-- A step fits if five tokens do. -/
instance (s : StepTokens) : Decidable s.Fits :=
  decidable_of_iff (s.dest.kind = .name ∧ s.equals.text = "=" ∧ s.left.isOperand = true ∧
      s.op.kind = .operator ∧ s.right.isOperand = true)
    ⟨fun ⟨dest, equals, left, op, right⟩ => ⟨dest, equals, left, op, right⟩,
      fun h => ⟨h.dest, h.equals, h.left, h.op, h.right⟩⟩

/-- A header fits if its tokens do, and if the separator is there when the look-ahead says so. -/
instance (h : LoopTokens) : Decidable h.Fits :=
  decidable_of_iff (h.counter.kind = .name ∧ h.equals.text = "=" ∧ h.start.isOperand = true ∧
      (∀ second ∈ h.tokens[4]?, h.separator.isSome = true ↔ second.kind ≠ .operator) ∧
      h.left.isOperand = true ∧ h.right.isOperand = true ∧ ∀ s ∈ h.step, s.Fits)
    ⟨fun ⟨counter, equals, start, separator, left, right, step⟩ =>
        ⟨counter, equals, start, separator, left, right, step⟩,
      fun h => ⟨h.counter, h.equals, h.start, h.separator, h.left, h.right, h.step⟩⟩

/-- The tokens of an assignment are looked at one by one, the pairs included. -/
instance (dest equals first : Token) (pairs : List (Token × Token)) :
    Decidable (IsAssignment dest equals first pairs) :=
  decidable_of_iff (dest.kind = .name ∧ equals.text = "=" ∧ first.isOperand = true ∧
      ∀ pair ∈ pairs, pair.1.kind = .operator ∧ pair.2.isOperand = true)
    ⟨fun ⟨dest, equals, first, pairs⟩ => ⟨dest, equals, first, pairs⟩,
      fun h => ⟨h.dest, h.equals, h.first, h.pairs⟩⟩

/-- With this the witnesses about fixed tokens are settled by evaluation. -/
instance : DecidablePred Form.Fits
  | .ignored .. => inferInstanceAs (Decidable (_ ∧ _))
  | .assignment .. => inferInstanceAs (Decidable (IsAssignment _ _ _ _))
  | .conditional .. => inferInstanceAs (Decidable (_ ∧ _))
  | .print .. => inferInstanceAs (Decidable (_ ∧ _))
  | .closeConditional _ => inferInstanceAs (Decidable (_ ∧ _))
  | .closeLoop _ => inferInstanceAs (Decidable (_ ∧ _))
  | .loop .. => inferInstanceAs (Decidable (_ ∧ _))

/-- The step that tokens stand for. The separator and the equals sign are not part of it, and of
the operands only the texts are. -/
def StepTokens.step (s : StepTokens) : Step :=
  ⟨s.dest.text, s.left.text, s.op, s.right.text⟩

/-- The loop that a header opens, on the line of its keyword. The operators stay tokens, because
the generator may have to name their lines. -/
def LoopTokens.statement (line : Int) (h : LoopTokens) : Statement :=
  .openLoop line h.counter.text h.start.text ⟨h.left.text, h.op, h.right.text⟩
    (h.step.map StepTokens.step)

/-- The statement that a form stands for. An ignored line keeps its words, for the notice about
it. -/
def Form.statement : Form → Statement
  | .ignored dest rest => .ignored dest.line ((dest :: rest).map (·.text))
  | .assignment dest _ first pairs => .assign dest.text first.text (namedPairs pairs)
  | .conditional keyword left op right =>
    .openConditional keyword.line ⟨left.text, op, right.text⟩
  | .print _ value device => .print value.text device.text
  | .closeConditional keyword => .closeConditional keyword.line
  | .closeLoop keyword => .closeLoop keyword.line
  | .loop keyword header => header.statement keyword.line

/-! ### Checks of single tokens -/

/-- A computation behind a check succeeds exactly if the check is passed and the computation
succeeds. Rewriting with this turns a `do` block of checks into a conjunction. -/
theorem check_bind_eq_ok {ε α : Type} {p : Prop} [Decidable p] {e : ε}
    {f : Unit → Except ε α} {a : α} :
    (if p then .ok () else .error e : Except ε Unit) >>= f = .ok a ↔ p ∧ f () = .ok a := by
  by_cases h : p
  · rw [if_pos h]
    exact ⟨fun hf => ⟨h, hf⟩, And.right⟩
  · rw [if_neg h]
    exact ⟨nofun, fun both => absurd both.1 h⟩

/-- A check is passed exactly if what it checks is true. This is for the end of a chain of checks,
and for a check that stands alone. -/
theorem check_eq_ok {ε : Type} {p : Prop} [Decidable p] {e : ε} :
    (if p then .ok () else .error e : Except ε Unit) = .ok () ↔ p := by
  by_cases h : p <;> simp [h]

namespace Token

variable {α : Type} {t : Token} {f : Unit → Except CompileError α} {a : α}

/-- What comes behind the check for an operand, as in `check_bind_eq_ok`. The four lemmas here let
`simp only` read the checks of a form off its reader. -/
theorem requireOperand_bind_eq_ok :
    t.requireOperand >>= f = .ok a ↔ t.isOperand = true ∧ f () = .ok a :=
  check_bind_eq_ok

/-- What comes behind the check for a name. -/
theorem requireName_bind_eq_ok : t.requireName >>= f = .ok a ↔ t.kind = .name ∧ f () = .ok a :=
  check_bind_eq_ok

/-- What comes behind the check for an operator, which is about the kind of the token only. -/
theorem requireOperator_bind_eq_ok :
    t.requireOperator >>= f = .ok a ↔ t.kind = .operator ∧ f () = .ok a :=
  check_bind_eq_ok

/-- What comes behind the check for an equals sign, which is about the text of the token only. -/
theorem requireEquals_bind_eq_ok : t.requireEquals >>= f = .ok a ↔ t.text = "=" ∧ f () = .ok a :=
  check_bind_eq_ok

end Token

/-- A check of a list is passed exactly if everything in the list passes it. One direction is
`forM_eq_ok`, and the other one is an induction on the list. -/
theorem forM_eq_ok_iff {ε α : Type} {check : α → Except ε Unit} {xs : List α} :
    xs.forM check = .ok () ↔ ∀ x ∈ xs, check x = .ok () := by
  refine ⟨fun h => ?_, forM_eq_ok⟩
  induction xs with
  | nil => simp
  | cons x xs ih =>
    obtain ⟨_, hx, hxs⟩ := bind_eq_ok (x := check x) (f := fun _ => xs.forM check) h
    simpa [hx] using ih hxs

/-! ### The reader and the forms -/

namespace Statement

/-- Tokens can be taken two by two exactly if they are pairs one behind the other. The induction
follows the recursion of `pairUp?`, which takes two tokens at a time. -/
theorem pairUp?_eq_some_iff {tokens : List Token} {pairs : List (Token × Token)} :
    pairUp? tokens = some pairs ↔ tokens = pairs.flatMap fun pair => [pair.1, pair.2] := by
  refine ⟨fun h => ?_, fun h => h ▸ pairUp?_flatMap pairs⟩
  fun_induction pairUp? tokens generalizing pairs with
  | case1 =>
    cases h
    rfl
  | case2 => cases h
  | case3 a b rest ih =>
    obtain ⟨others, hothers, rfl⟩ := Option.map_eq_some_iff.mp h
    simp [ih hothers]

/-- An expression that is read starts with an operand, and pairs of an operator and an operand
follow. This undoes the reader of assignments: it tells what the tokens were. -/
theorem exists_pairs_of_ofAssignment {dest : Token} {expression : List Token} {s : Statement}
    (h : ofAssignment dest expression = .ok s) :
    ∃ first pairs, expression = first :: pairs.flatMap (fun pair => [pair.1, pair.2]) ∧
      first.isOperand = true ∧
      (∀ pair ∈ pairs, pair.1.kind = .operator ∧ pair.2.isOperand = true) ∧
      s = .assign dest.text first.text (namedPairs pairs) := by
  unfold ofAssignment at h
  split at h
  · cases h
  · rename_i first rest
    split at h
    · cases h
    · rename_i pairs hpairs
      simp only [Token.requireOperand_bind_eq_ok] at h
      obtain ⟨hfirst, h⟩ := h
      obtain ⟨_, operands, h⟩ := bind_eq_ok h
      obtain ⟨_, operators, h⟩ := bind_eq_ok h
      cases h
      refine ⟨first, pairs, by rw [pairUp?_eq_some_iff.mp hpairs], hfirst, ?_, rfl⟩
      intro pair hpair
      have operand := forM_eq_ok_iff.mp operands pair hpair
      have operator := forM_eq_ok_iff.mp operators pair hpair
      exact ⟨check_eq_ok.mp operator, check_eq_ok.mp operand⟩

/-- A step that is read has tokens that fit, with or without a separator in front. Five tokens
have none and six have one, and any other number is refused. -/
theorem exists_tokens_of_read {line : Int} {rest : List Token} {step : Option Step}
    (h : (StepShape.of rest).read line = .ok step) :
    ∃ tokens : Option StepTokens, (tokens.map StepTokens.tokens).getD [] = rest ∧
      (∀ s ∈ tokens, s.Fits) ∧ tokens.map StepTokens.step = step := by
  -- The separator is not looked at, so both lengths come down to the same five checks.
  have present : ∀ (separator : Option Token) {dest equals left op right : Token},
      (StepShape.present dest equals left op right).read line = .ok step →
      (StepTokens.mk separator dest equals left op right).Fits ∧
        some (StepTokens.mk separator dest equals left op right).step = step := by
    intro separator dest equals left op right h
    simp only [StepShape.read, Token.requireName_bind_eq_ok, Token.requireEquals_bind_eq_ok,
      Token.requireOperand_bind_eq_ok, Token.requireOperator_bind_eq_ok] at h
    obtain ⟨hdest, hequals, hleft, hop, hright, h⟩ := h
    cases h
    exact ⟨⟨hdest, hequals, hleft, hop, hright⟩, rfl⟩
  unfold StepShape.of at h
  split at h
  · cases h
    exact ⟨none, rfl, by simp, rfl⟩
  · obtain ⟨fits, rfl⟩ := present none h
    exact ⟨some _, rfl, by simpa using fits, rfl⟩
  · rename_i separator dest equals left op right
    obtain ⟨fits, rfl⟩ := present (some separator) h
    exact ⟨some _, rfl, by simpa using fits, rfl⟩
  · cases h

/-- What the look-ahead drops is one token or none, and it is one exactly if the second token is
no operator. In either case, putting it back gives the tokens that were there. -/
theorem exists_separator (first second : Token) (more : List Token) :
    ∃ separator : Option Token,
      separator.toList ++ dropSeparator (first :: second :: more) = first :: second :: more ∧
        (separator.isSome = true ↔ second.kind ≠ .operator) := by
  unfold dropSeparator
  by_cases hkind : second.kind = .operator
  · exact ⟨none, by simp [hkind], by simp [hkind]⟩
  · exact ⟨some first, by simp [hkind], by simp [hkind]⟩

/-- A header that is read has tokens that fit. The separator is recovered from what the look-ahead
has dropped, and the step from what was left behind the test. -/
theorem exists_header_of_ofLoop {line : Int} {tokens : List Token} {s : Statement}
    (h : ofLoop line tokens = .ok s) :
    ∃ header : LoopTokens, header.Fits ∧ header.tokens = tokens ∧ header.statement line = s := by
  unfold ofLoop at h
  split at h
  · rename_i counter equals start first second third more
    obtain ⟨separator, htokens, lookahead⟩ := exists_separator first second (third :: more)
    split at h
    · rename_i left op right rest hdrop
      rw [hdrop] at htokens
      have hparts : ofLoopParts line counter equals start left op right (StepShape.of rest) =
          .ok s := by
        split at h
        · cases h
        · exact h
      simp only [ofLoopParts, Token.requireName_bind_eq_ok, Token.requireEquals_bind_eq_ok,
        Token.requireOperand_bind_eq_ok] at hparts
      obtain ⟨hcounter, hequals, hstart, hleft, hright, hstep⟩ := hparts
      obtain ⟨step, hread, hstep⟩ := bind_eq_ok hstep
      cases hstep
      obtain ⟨steps, rfl, hsteps, rfl⟩ := exists_tokens_of_read hread
      -- The separator that was dropped goes back to its place.
      let header : LoopTokens := ⟨counter, equals, start, separator, left, op, right, steps⟩
      have written : header.tokens =
          counter :: equals :: start :: first :: second :: third :: more := by
        simp [LoopTokens.tokens, header, ← htokens]
      refine ⟨header, ⟨hcounter, hequals, hstart, ?_, hleft, hright, hsteps⟩, written, rfl⟩
      intro token htoken
      rw [written] at htoken
      cases htoken
      exact lookahead
    · cases h
  · cases h

/-- Tokens that are read are written by a form that fits. The cases are those of the reader: an
empty list, a name with or without an equals sign behind it, and one case for each keyword. -/
theorem exists_form_of_ofTokens {tokens : List Token} {s : Statement}
    (h : ofTokens tokens = .ok s) :
    ∃ f : Form, f.Fits ∧ f.tokens = tokens ∧ f.statement = s := by
  unfold ofTokens at h
  split at h
  · cases h
  · rename_i head rest
    -- The first token is a name, a keyword or neither.
    split at h
    · rename_i hkind
      unfold ofNameLed at h
      dsimp only at h
      split at h
      · cases h
        exact ⟨.ignored head [], ⟨hkind, by simp⟩, rfl, rfl⟩
      · rename_i second expression
        split at h
        · rename_i hequals
          obtain ⟨first, pairs, rfl, hfirst, hpairs, rfl⟩ := exists_pairs_of_ofAssignment h
          exact ⟨.assignment head second first pairs, ⟨hkind, hequals, hfirst, hpairs⟩, rfl, rfl⟩
        · rename_i hother
          cases h
          exact ⟨.ignored head (second :: expression), ⟨hkind, by simpa using hother⟩, rfl, rfl⟩
    · rename_i hkind
      -- One `split` for each keyword, in the order in which they are tried.
      unfold ofKeywordLed at h
      dsimp only at h
      split at h
      · rename_i hword
        unfold ofConditional at h
        split at h
        · rename_i left op right
          simp only [Token.requireOperand_bind_eq_ok] at h
          obtain ⟨hleft, hright, h⟩ := h
          cases h
          exact ⟨.conditional head left op right, ⟨hkind, hword, hleft, hright⟩, rfl, rfl⟩
        · cases h
      split at h
      · rename_i hword
        unfold ofCloser at h
        split at h <;> cases h
        exact ⟨.closeConditional head, ⟨hkind, hword⟩, rfl, rfl⟩
      split at h
      · rename_i hword
        obtain ⟨header, fits, rfl, rfl⟩ := exists_header_of_ofLoop h
        exact ⟨.loop head header, ⟨hkind, hword, fits⟩, rfl, rfl⟩
      split at h
      · rename_i hword
        unfold ofCloser at h
        split at h <;> cases h
        exact ⟨.closeLoop head, ⟨hkind, hword⟩, rfl, rfl⟩
      split at h
      · rename_i hword
        unfold ofPrint at h
        split at h
        · rename_i value device
          simp only [Token.requireOperand_bind_eq_ok] at h
          obtain ⟨hvalue, hdevice, h⟩ := h
          cases h
          exact ⟨.print head value device, ⟨hkind, hword, hvalue, hdevice⟩, rfl, rfl⟩
        · cases h
      · cases h
    · cases h

/-- The tokens of a step are found again, whether they start with a separator or not. -/
theorem StepShape.of_tokens (s : StepTokens) :
    StepShape.of s.tokens = .present s.dest s.equals s.left s.op s.right := by
  obtain ⟨separator, dest, equals, left, op, right⟩ := s
  cases separator <;> rfl

/-- The tokens of a step that fits are read as the step, and no tokens are read as no step. It is
the converse of `exists_tokens_of_read`. -/
theorem read_step {line : Int} {step : Option StepTokens} (h : ∀ s ∈ step, s.Fits) :
    (StepShape.of ((step.map StepTokens.tokens).getD [])).read line =
      .ok (step.map StepTokens.step) := by
  cases step with
  | none => rfl
  | some s =>
    obtain ⟨hdest, hequals, hleft, hop, hright⟩ := h s rfl
    simp only [Option.map_some, Option.getD_some, StepShape.of_tokens, StepShape.read,
      Token.requireName_bind_eq_ok, Token.requireEquals_bind_eq_ok,
      Token.requireOperand_bind_eq_ok, Token.requireOperator_bind_eq_ok]
    exact ⟨hdest, hequals, hleft, hop, hright, rfl⟩

/-- The reader of loops, once the separator in front of the test is found. The hypothesis says
that the look-ahead drops what the header has as its separator; the rest is a matter of
lengths. -/
theorem ofLoop_of_dropSeparator {line : Int} {counter equals start left op right : Token}
    {separator : Option Token} {step : Option StepTokens}
    (hdrop : dropSeparator (separator.toList ++ left :: op :: right ::
        (step.map StepTokens.tokens).getD []) =
      left :: op :: right :: (step.map StepTokens.tokens).getD []) :
    ofLoop line (LoopTokens.mk counter equals start separator left op right step).tokens =
      ofLoopParts line counter equals start left op right
        (StepShape.of ((step.map StepTokens.tokens).getD [])) := by
  -- The reader asks for three tokens before it looks for a separator. Either way there are that
  -- many.
  have reads : ∀ first second third more,
      separator.toList ++ left :: op :: right :: (step.map StepTokens.tokens).getD [] =
        first :: second :: third :: more →
      ofLoop line (counter :: equals :: start :: first :: second :: third :: more) =
        ofLoopParts line counter equals start left op right
          (StepShape.of ((step.map StepTokens.tokens).getD [])) := by
    intro first second third more heq
    rw [heq] at hdrop
    simp only [ofLoop, hdrop]
    cases step with
    | none => rfl
    | some s =>
      simp only [Option.map_some, Option.getD_some, StepShape.of_tokens]
  cases separator with
  | none => exact reads left op right _ rfl
  | some separator => exact reads separator left op _ rfl

/-- The tokens of a header that fits are read as the loop. That the look-ahead finds the right
place is what the field `separator` of `LoopTokens.Fits` is for. -/
theorem ofLoop_tokens {header : LoopTokens} (fits : header.Fits) (line : Int) :
    ofLoop line header.tokens = .ok (header.statement line) := by
  obtain ⟨counter, equals, start, separator, left, op, right, step⟩ := header
  obtain ⟨hcounter, hequals, hstart, hseparator, hleft, hright, hstep⟩ := fits
  have hdrop : dropSeparator (separator.toList ++ left :: op :: right ::
        (step.map StepTokens.tokens).getD []) =
      left :: op :: right :: (step.map StepTokens.tokens).getD [] := by
    -- The token that decides is the operator of the test, or the operand in front of it.
    cases separator with
    | none =>
      have hkind : op.kind = .operator := by simpa [LoopTokens.tokens] using hseparator
      simp [dropSeparator, hkind]
    | some separator =>
      have hkind : left.kind ≠ .operator := by simpa [LoopTokens.tokens] using hseparator
      simp [dropSeparator, hkind]
  rw [ofLoop_of_dropSeparator hdrop]
  simp only [ofLoopParts, Token.requireName_bind_eq_ok, Token.requireEquals_bind_eq_ok,
    Token.requireOperand_bind_eq_ok, read_step hstep]
  exact ⟨hcounter, hequals, hstart, hleft, hright, rfl⟩

/-- A form that fits is read as its statement. There is one case for each form, and the hard one
is that of loops (`ofLoop_tokens`). -/
theorem ofTokens_of_fits {f : Form} (fits : f.Fits) : ofTokens f.tokens = .ok f.statement := by
  cases f with
  | ignored dest rest =>
    obtain ⟨hkind, hsecond⟩ := fits
    simp only [Form.tokens, ofTokens, hkind, ofNameLed]
    cases rest with
    | nil => rfl
    | cons second expression =>
      have hother : second.text ≠ "=" := hsecond second rfl
      simp [hother, Form.statement]
  | assignment dest equals first pairs => exact ofTokens_assignmentTokens fits
  | conditional keyword left op right =>
    obtain ⟨hkind, hword, hleft, hright⟩ := fits
    have reads : ofConditional keyword.line [left, op, right] =
        .ok (.openConditional keyword.line ⟨left.text, op, right.text⟩) := by
      simp only [ofConditional, Token.requireOperand_bind_eq_ok]
      exact ⟨hleft, hright, rfl⟩
    simp [Form.tokens, ofTokens, hkind, ofKeywordLed, hword, reads, Form.statement]
  | print keyword value device =>
    obtain ⟨hkind, hword, hvalue, hdevice⟩ := fits
    have reads : ofPrint keyword.line [value, device] = .ok (.print value.text device.text) := by
      simp only [ofPrint, Token.requireOperand_bind_eq_ok]
      exact ⟨hvalue, hdevice, rfl⟩
    simp [Form.tokens, ofTokens, hkind, ofKeywordLed, hword, reads, Form.statement]
  | closeConditional keyword =>
    obtain ⟨hkind, hword⟩ := fits
    simp [Form.tokens, ofTokens, hkind, ofKeywordLed, hword, ofCloser, Form.statement]
  | closeLoop keyword =>
    obtain ⟨hkind, hword⟩ := fits
    simp [Form.tokens, ofTokens, hkind, ofKeywordLed, hword, ofCloser, Form.statement]
  | loop keyword header =>
    obtain ⟨hkind, hword, hheader⟩ := fits
    simp [Form.tokens, ofTokens, hkind, ofKeywordLed, hword, ofLoop_tokens hheader,
      Form.statement]

/-- **The reader reads the forms.** A list of tokens is read as a statement exactly if a form of
that statement is written so. With this a proof about all lists of tokens becomes one about all
forms, by cases over seven constructors. -/
theorem ofTokens_eq_ok_iff {tokens : List Token} {s : Statement} :
    ofTokens tokens = .ok s ↔ ∃ f : Form, f.Fits ∧ f.tokens = tokens ∧ f.statement = s := by
  refine ⟨exists_form_of_ofTokens, ?_⟩
  rintro ⟨f, fits, rfl, rfl⟩
  exact ofTokens_of_fits fits

end Statement

/-! ### No list of tokens has two readings -/

/-- A step is written in one way: five tokens have no separator in front of them, and six have
one. No tokens at all are no step. -/
theorem StepTokens.eq_of_tokens {s t : Option StepTokens}
    (same : (s.map StepTokens.tokens).getD [] = (t.map StepTokens.tokens).getD []) : s = t := by
  cases s with
  | none =>
    cases t with
    | none => rfl
    | some t => simp [StepTokens.tokens] at same
  | some s =>
    cases t with
    | none => simp [StepTokens.tokens] at same
    | some t =>
      obtain ⟨separator, dest, equals, left, op, right⟩ := s
      obtain ⟨separator', dest', equals', left', op', right'⟩ := t
      -- The lengths exclude that one of them has a separator and the other has none.
      cases separator <;> cases separator' <;> simp_all [StepTokens.tokens]

/-- Two headers that fit and are written alike are the same. Without the look-ahead this would be
false: a header with the first separator is as long as one with the second. -/
theorem LoopTokens.eq_of_tokens {h k : LoopTokens} (hfits : h.Fits) (kfits : k.Fits)
    (same : h.tokens = k.tokens) : h = k := by
  obtain ⟨counter, equals, start, separator, left, op, right, step⟩ := h
  obtain ⟨counter', equals', start', separator', left', op', right', step'⟩ := k
  have lookahead := hfits.separator
  have lookahead' := kfits.separator
  rw [← same] at lookahead'
  -- Both look at the same token, so both have the separator or none has.
  cases separator with
  | none =>
    cases separator' with
    | none =>
      simp only [LoopTokens.tokens, Option.toList_none, List.append_nil, List.cons_append,
        List.nil_append, List.cons.injEq] at same
      obtain ⟨rfl, rfl, rfl, rfl, rfl, rfl, hstep⟩ := same
      rw [StepTokens.eq_of_tokens hstep]
    | some separator' => simp_all [LoopTokens.tokens]
  | some separator =>
    cases separator' with
    | none => simp_all [LoopTokens.tokens]
    | some separator' =>
      simp only [LoopTokens.tokens, Option.toList_some, List.cons_append, List.nil_append,
        List.cons.injEq] at same
      obtain ⟨rfl, rfl, rfl, rfl, rfl, rfl, rfl, hstep⟩ := same
      rw [StepTokens.eq_of_tokens hstep]

/-- **No list of tokens has two readings.** The reader is a function, so two forms with the same
tokens have the same statement. What is left is that the tokens of one kind of form determine its
parts. -/
theorem Form.eq_of_tokens {f g : Form} (hf : f.Fits) (hg : g.Fits) (same : f.tokens = g.tokens) :
    f = g := by
  -- The reader gives one statement, which settles what kind of form both are.
  have hstatement : f.statement = g.statement := by
    have hread := Statement.ofTokens_of_fits hf
    rw [same, Statement.ofTokens_of_fits hg] at hread
    exact (Except.ok.inj hread).symm
  cases f with
  | ignored dest rest =>
    cases g with
    | ignored dest' rest' =>
      cases same
      rfl
    | _ => cases hstatement
  | assignment dest equals first pairs =>
    cases g with
    | assignment dest' equals' first' pairs' =>
      simp only [Form.tokens, assignmentTokens, List.cons.injEq] at same
      obtain ⟨rfl, rfl, rfl, hpairs⟩ := same
      -- Pairing up what stands behind the first operand finds either list of pairs.
      have found := pairUp?_flatMap pairs
      rw [hpairs, pairUp?_flatMap] at found
      cases found
      rfl
    | _ => cases hstatement
  | conditional keyword left op right =>
    cases g with
    | conditional keyword' left' op' right' =>
      cases same
      rfl
    | _ => cases hstatement
  | print keyword value device =>
    cases g with
    | print keyword' value' device' =>
      cases same
      rfl
    | _ => cases hstatement
  | closeConditional keyword =>
    cases g with
    | closeConditional keyword' =>
      cases same
      rfl
    | _ => cases hstatement
  | closeLoop keyword =>
    cases g with
    | closeLoop keyword' =>
      cases same
      rfl
    | _ => cases hstatement
  | loop keyword header =>
    cases g with
    | loop keyword' header' =>
      simp only [Form.tokens, List.cons.injEq] at same
      obtain ⟨rfl, hheader⟩ := same
      rw [LoopTokens.eq_of_tokens hf.2.2 hg.2.2 hheader]
    | _ => cases hstatement

/-! ### What the generator accepts -/

/-- What the generator asks of a form that fits: the table has its operators, comparisons in
tests, and a closer has a block to close. It is here that the state of the generator comes in, and
only for the closers. -/
def Form.Allowed (m : Mnemonics) (g : Generator) : Form → Prop
  | .ignored .. => True
  | .assignment _ _ _ pairs => ∀ pair ∈ pairs, m.Supports pair.1
  | .conditional _ _ op _ => m.SupportsTest op
  | .print .. => True
  | .closeConditional _ => g.conditionals ≠ []
  | .closeLoop _ => g.loops ≠ []
  | .loop _ header => m.SupportsTest header.op ∧ ∀ s ∈ header.step, m.Supports s.op

/-- A form that the generator accepts: its tokens are where they can be (`fits`), and the table
and the open blocks allow it (`allowed`). -/
structure Form.Admitted (m : Mnemonics) (g : Generator) (f : Form) : Prop where
  fits : f.Fits
  allowed : f.Allowed m g

/-- The table is looked up, unless the operator reads a property. -/
instance (m : Mnemonics) (op : Token) : Decidable (m.Supports op) :=
  inferInstanceAs (Decidable (_ ∨ _))

/-- The kind of the operator, the table and the list of comparisons are looked up. -/
instance (m : Mnemonics) (op : Token) : Decidable (m.SupportsTest op) :=
  inferInstanceAs (Decidable (_ ∧ _))

/-- Each form is allowed or not by a look at the table and at the stacks. -/
instance (m : Mnemonics) (g : Generator) : DecidablePred (Form.Allowed m g)
  | .ignored .. => inferInstanceAs (Decidable True)
  | .assignment _ _ _ pairs => inferInstanceAs (Decidable (∀ pair ∈ pairs, m.Supports pair.1))
  | .conditional _ _ op _ => inferInstanceAs (Decidable (m.SupportsTest op))
  | .print .. => inferInstanceAs (Decidable True)
  | .closeConditional _ => inferInstanceAs (Decidable (g.conditionals ≠ []))
  | .closeLoop _ => inferInstanceAs (Decidable (g.loops ≠ []))
  | .loop _ header => inferInstanceAs
    (Decidable (m.SupportsTest header.op ∧ ∀ s ∈ header.step, m.Supports s.op))

/-- Whether the generator accepts a form can be found out without running it. -/
instance (m : Mnemonics) (g : Generator) (f : Form) : Decidable (f.Admitted m g) :=
  decidable_of_iff (f.Fits ∧ f.Allowed m g)
    ⟨fun h => ⟨h.1, h.2⟩, fun h => ⟨h.fits, h.allowed⟩⟩

/-- What the generator asks, in terms of the statement: supported operators, and an open block for
a closer. `Generator.add_eq_none_iff` speaks of statements in this way. -/
theorem Form.allowed_iff {m : Mnemonics} {g : Generator} {f : Form} :
    f.Allowed m g ↔
      f.statement.Supported m ∧ ∀ b, f.statement.closes = some b → g.stack b ≠ [] := by
  cases f with
  | assignment dest equals first pairs =>
    have named : (∀ pair ∈ namedPairs pairs, m.Supports pair.1) ↔
        ∀ pair ∈ pairs, m.Supports pair.1 := by
      rw [namedPairs, List.forall_mem_map]
    refine named.symm.trans ⟨fun supported => ⟨supported, ?_⟩, And.left⟩
    intro b hb
    cases hb
  | loop keyword header =>
    simp [Form.Allowed, Form.statement, LoopTokens.statement, Statement.Supported,
      Statement.closes, StepTokens.step, and_comm]
  | _ =>
    simp [Form.Allowed, Form.statement, Statement.Supported, Statement.closes, Generator.stack]

/-- The instructions of a loop's header at the address `base`: set the counter, skip the step,
step, test, and the jump out of the loop, whose target is set when the loop is closed. The jump
over the step is taken once, when the loop is entered. -/
def LoopTokens.code (m : Mnemonics) (base : Nat) (h : LoopTokens) : List Instr :=
  [.plain .set [h.counter.text, h.start.text], .jumpTo (base + 3) [always],
    advanceInstr m h.counter.text (h.step.map StepTokens.step),
    .plain .op [operationWord m h.op, loopFlag, h.left.text, h.right.text],
    .pendingJump ["equal", loopFlag, "false"]]

namespace Generator

/-- A loop that is accepted adds the instructions of its header, and its jump waits. It is the
fifth instruction, hence the place on the stack. -/
theorem addTokens_loop {m : Mnemonics} {g : Generator} {keyword : Token} {header : LoopTokens}
    (h : (Form.loop keyword header).Admitted m g) :
    g.addTokens m (Form.loop keyword header).tokens =
      ({ g with
          code := g.code ++ header.code m g.code.length
          loops := ⟨g.code.length + 4, .loop, keyword.line⟩ :: g.loops }, none) := by
  have hread := Statement.ofTokens_of_fits h.fits
  obtain ⟨⟨hstep, htest⟩, -⟩ := Form.allowed_iff.mp h.allowed
  simp only [addTokens, hread, Form.statement, LoopTokens.statement, add, Generator.openLoop,
    loopInstrs, stepInstr_of_supports hstep, conditionWord_of_supportsTest htest]
  rfl

/-- **The generator accepts exactly its grammar, and the grammar has no ambiguity.** For any
table, any state of the generator and any tokens:

- the tokens are accepted exactly if they are those of a form that fits and whose operators and
  closers are allowed;
- they are those of at most one form that fits;
- if that form is a loop, its own instructions are added, and its own jump waits for the end of
  the loop. -/
theorem accepted_iff_admitted (m : Mnemonics) (g : Generator) (tokens : List Token) :
    ((g.addTokens m tokens).2 = none ↔ ∃ f : Form, f.tokens = tokens ∧ f.Admitted m g) ∧
      (∀ f f' : Form, f.Fits → f'.Fits → f.tokens = tokens → f'.tokens = tokens → f = f') ∧
      ∀ keyword header, (Form.loop keyword header).Admitted m g →
        (Form.loop keyword header).tokens = tokens →
        g.addTokens m tokens =
          ({ g with
              code := g.code ++ header.code m g.code.length
              loops := ⟨g.code.length + 4, .loop, keyword.line⟩ :: g.loops }, none) := by
  refine ⟨⟨fun h => ?_, ?_⟩, ?_, ?_⟩
  · unfold addTokens at h
    split at h
    · rename_i s hs
      obtain ⟨f, fits, htokens, rfl⟩ := Statement.ofTokens_eq_ok_iff.mp hs
      exact ⟨f, htokens, fits, Form.allowed_iff.mpr (add_eq_none_iff.mp h)⟩
    · cases h
  · rintro ⟨f, rfl, admitted⟩
    rw [addTokens, Statement.ofTokens_of_fits admitted.fits]
    exact add_eq_none_iff.mpr (Form.allowed_iff.mp admitted.allowed)
  · intro f f' fits fits' htokens htokens'
    exact Form.eq_of_tokens fits fits' (htokens.trans htokens'.symm)
  · -- A loop is the one form whose code depends on which of two readings is taken.
    rintro keyword header admitted rfl
    exact addTokens_loop admitted

/-- Two headers of as many tokens: `for i = 0 to i < 9 i = i + 2` has the first separator, and
`for i = 0 i < 9 step i = i + 2` has the second one. Both are accepted, each as it is meant. -/
theorem accepted_iff_of_either_separator :
    let token (kind : TokenKind) (text : String) : Token := ⟨kind, text, 1⟩
    let step (separator : Option Token) : StepTokens :=
      ⟨separator, token .name "i", token .operator "=", token .name "i", token .operator "+",
        token .value "2"⟩
    let header (separator : Option Token) (step : StepTokens) : LoopTokens :=
      ⟨token .name "i", token .operator "=", token .value "0", separator, token .name "i",
        token .operator "<", token .value "9", some step⟩
    let early := Form.loop (token .keyword "for") (header (some (token .name "to")) (step none))
    let late := Form.loop (token .keyword "for") (header none (step (some (token .name "step"))))
    early.tokens.length = late.tokens.length ∧ early.Admitted .standard {} ∧
      late.Admitted .standard {} ∧ (({} : Generator).addTokens .standard early.tokens).2 = none ∧
      (({} : Generator).addTokens .standard late.tokens).2 = none ∧
        early.tokens ≠ late.tokens := by
  intro token step header early late
  have hearly : early.Admitted .standard {} := by decide
  have hlate : late.Admitted .standard {} := by decide
  refine ⟨rfl, hearly, hlate, ?_, ?_, by decide⟩
  · exact (accepted_iff_admitted .standard {} early.tokens).1.mpr ⟨early, rfl, hearly⟩
  · exact (accepted_iff_admitted .standard {} late.tokens).1.mpr ⟨late, rfl, hlate⟩

end Generator

end Tickscript
