import Tickscript.Compile
import Tickscript.Proofs.Except
import Tickscript.Proofs.Generator.Translation

/-!
# `Tickscript.Proofs.Script.Names`: no program can name the flag of its loops

The generator keeps the outcome of a loop's test in a variable of its own. A source text cannot
write or read it, because no fragment with this text is a token (`ofText?_loopFlag`). What a
statement names comes from the tokens it was read from (`exists_token_of_mem_operands`), so no
statement of a source text names the flag (`operand_ne_loopFlag`).
-/

set_option autoImplicit false

namespace Tickscript

/-- The texts of a statement that name a variable or a value. Operators and the words of ignored
statements are not among them. -/
def Statement.operands : Statement → List String
  | .ignored .. => []
  | .assign dest first rest => dest :: first :: rest.map Prod.snd
  | .openConditional _ test => [test.left, test.right]
  | .closeConditional _ => []
  | .openLoop _ counter start test step =>
    counter :: start :: test.left :: test.right ::
      step.elim [] fun s => [s.dest, s.left, s.right]
  | .closeLoop _ => []
  | .print value device => [value, device]

/-- The statements of a source text, as the generator reads them. -/
def Statement.parse (v : Vocabulary) (source : String) :
    Except CompileError (List Statement) := do
  let tokens ← Token.parse v source
  tokens.mapM Statement.ofTokens

/-! ### Where the operands of a statement come from -/

namespace Statement

/-- The operands of a chain are tokens of the expression. -/
theorem mem_of_pairUp? {tokens : List Token} {pairs : List (Token × Token)}
    (h : pairUp? tokens = some pairs) {pair : Token × Token} (hpair : pair ∈ pairs) :
    pair.2 ∈ tokens := by
  fun_induction pairUp? tokens generalizing pairs with
  | case1 =>
    cases h
    cases hpair
  | case2 => cases h
  | case3 a b rest ih =>
    obtain ⟨others, hothers, rfl⟩ := Option.map_eq_some_iff.mp h
    rcases List.mem_cons.mp hpair with rfl | hpair
    · simp
    · simp [ih hothers hpair]

/-- Without its separator a list has no other tokens. -/
theorem mem_of_mem_dropSeparator {tokens : List Token} {t : Token}
    (h : t ∈ dropSeparator tokens) : t ∈ tokens := by
  unfold dropSeparator at h
  split at h
  · split at h
    · exact h
    · exact List.mem_cons_of_mem _ h
  · exact h

/-- The operands of an assignment are texts of its tokens. The checks between may fail, but they
change nothing. -/
theorem operands_ofAssignment {dest : Token} {expression : List Token} {s : Statement}
    (h : ofAssignment dest expression = .ok s) :
    ∀ arg ∈ s.operands, ∃ t ∈ dest :: expression, t.text = arg := by
  unfold ofAssignment at h
  split at h
  · cases h
  · rename_i first rest
    split at h
    · cases h
    · rename_i pairs hpairs
      obtain ⟨_, -, h⟩ := bind_eq_ok h
      obtain ⟨_, -, h⟩ := bind_eq_ok h
      obtain ⟨_, -, h⟩ := bind_eq_ok h
      cases h
      intro arg harg
      simp only [operands, List.map_map, List.mem_cons, List.mem_map, Function.comp] at harg
      rcases harg with rfl | rfl | ⟨pair, hpair, rfl⟩
      · exact ⟨dest, by simp, rfl⟩
      · exact ⟨first, by simp, rfl⟩
      · exact ⟨pair.2, by simp [mem_of_pairUp? hpairs hpair], rfl⟩

/-- The operands of a conditional are texts of its tokens: those on the two sides of its
operator. -/
theorem operands_ofConditional {line : Int} {tokens : List Token} {s : Statement}
    (h : ofConditional line tokens = .ok s) : ∀ arg ∈ s.operands, ∃ t ∈ tokens, t.text = arg := by
  unfold ofConditional at h
  split at h
  · obtain ⟨_, -, h⟩ := bind_eq_ok h
    obtain ⟨_, -, h⟩ := bind_eq_ok h
    cases h
    simp [operands]
  · cases h

/-- The operands of a print are texts of its tokens, the value and the device. -/
theorem operands_ofPrint {line : Int} {tokens : List Token} {s : Statement}
    (h : ofPrint line tokens = .ok s) : ∀ arg ∈ s.operands, ∃ t ∈ tokens, t.text = arg := by
  unfold ofPrint at h
  split at h
  · obtain ⟨_, -, h⟩ := bind_eq_ok h
    obtain ⟨_, -, h⟩ := bind_eq_ok h
    cases h
    simp [operands]
  · cases h

/-- The texts of a step are those of its tokens. A step that is written out has five tokens, or
six with a separator in front. -/
theorem texts_of_step {line : Int} {tokens : List Token} {step : Step}
    (h : (StepShape.of tokens).read line = .ok (some step)) :
    ∀ arg ∈ [step.dest, step.left, step.right], ∃ t ∈ tokens, t.text = arg := by
  have present : ∀ {dest equals left op right : Token},
      (StepShape.present dest equals left op right).read line = .ok (some step) →
      step = ⟨dest.text, left.text, op, right.text⟩ := by
    intro dest equals left op right h
    obtain ⟨_, -, h⟩ := bind_eq_ok h
    obtain ⟨_, -, h⟩ := bind_eq_ok h
    obtain ⟨_, -, h⟩ := bind_eq_ok h
    obtain ⟨_, -, h⟩ := bind_eq_ok h
    obtain ⟨_, -, h⟩ := bind_eq_ok h
    cases h
    rfl
  unfold StepShape.of at h
  split at h
  · cases h
  · rw [present h]
    simp
  · rw [present h]
    simp
  · cases h

/-- The parts of a loop stand in its statement as they are written, and its step is read. The
checks on the way may refuse the loop, but they change none of its parts. -/
theorem eq_openLoop_of_ofLoopParts {line : Int} {counter equals start left op right : Token}
    {shape : StepShape} {s : Statement}
    (h : ofLoopParts line counter equals start left op right shape = .ok s) :
    ∃ step, shape.read line = .ok step ∧
      s = .openLoop line counter.text start.text ⟨left.text, op, right.text⟩ step := by
  obtain ⟨_, -, h⟩ := bind_eq_ok h
  obtain ⟨_, -, h⟩ := bind_eq_ok h
  obtain ⟨_, -, h⟩ := bind_eq_ok h
  obtain ⟨_, -, h⟩ := bind_eq_ok h
  obtain ⟨_, -, h⟩ := bind_eq_ok h
  -- The step is the one part whose reading gives something.
  obtain ⟨step, hstep, h⟩ := bind_eq_ok h
  cases h
  exact ⟨step, hstep, rfl⟩

/-- The operands of a loop are texts of its tokens. A separator between the start and the test may
be dropped before the rest is read. -/
theorem operands_ofLoop {line : Int} {tokens : List Token} {s : Statement}
    (h : ofLoop line tokens = .ok s) : ∀ arg ∈ s.operands, ∃ t ∈ tokens, t.text = arg := by
  unfold ofLoop at h
  split at h
  · rename_i counter equals start first second third more
    split at h
    · rename_i left op right rest hdrop
      have inside : ∀ t ∈ left :: op :: right :: rest,
          t ∈ counter :: equals :: start :: first :: second :: third :: more := by
        intro t ht
        rw [← hdrop] at ht
        simp only [List.mem_cons]
        exact Or.inr (Or.inr (Or.inr (by simpa using mem_of_mem_dropSeparator ht)))
      have parts : ofLoopParts line counter equals start left op right (StepShape.of rest) =
          .ok s := by
        split at h
        · cases h
        · exact h
      obtain ⟨step, hstep, rfl⟩ := eq_openLoop_of_ofLoopParts parts
      intro arg harg
      simp only [operands, List.mem_cons] at harg
      rcases harg with rfl | rfl | rfl | rfl | harg
      · exact ⟨counter, by simp, rfl⟩
      · exact ⟨start, by simp, rfl⟩
      · exact ⟨left, inside left (by simp), rfl⟩
      · exact ⟨right, inside right (by simp), rfl⟩
      · cases step with
        | none => cases harg
        | some step =>
          obtain ⟨t, ht, htext⟩ := texts_of_step hstep arg harg
          exact ⟨t, inside t (by simp [ht]), htext⟩
    · cases h
  · cases h

/-- What a statement names comes from the tokens it was read from. There is one case for each way
in which tokens are read. -/
theorem exists_token_of_mem_operands {tokens : List Token} {s : Statement}
    (h : ofTokens tokens = .ok s) : ∀ arg ∈ s.operands, ∃ t ∈ tokens, t.text = arg := by
  -- A keyword in front is no operand.
  have weaken : ∀ {head : Token} {rest : List Token},
      (∀ arg ∈ s.operands, ∃ t ∈ rest, t.text = arg) →
      ∀ arg ∈ s.operands, ∃ t ∈ head :: rest, t.text = arg := by
    intro head rest hrest arg harg
    obtain ⟨t, ht, htext⟩ := hrest arg harg
    exact ⟨t, List.mem_cons_of_mem _ ht, htext⟩
  unfold ofTokens at h
  split at h
  · cases h
  · rename_i head rest
    -- The kind of the first token decides which form is read.
    split at h
    · unfold ofNameLed at h
      dsimp only at h
      split at h
      · cases h
        simp [operands]
      · split at h
        · intro arg harg
          obtain ⟨t, ht, htext⟩ := operands_ofAssignment h arg harg
          refine ⟨t, ?_, htext⟩
          rcases List.mem_cons.mp ht with rfl | ht
          · simp
          · simp [ht]
        · cases h
          simp [operands]
    · unfold ofKeywordLed at h
      dsimp only at h
      repeat' split at h
      · exact weaken (operands_ofConditional h)
      · unfold ofCloser at h
        split at h <;> cases h
        simp [operands]
      · exact weaken (operands_ofLoop h)
      · unfold ofCloser at h
        split at h <;> cases h
        simp [operands]
      · exact weaken (operands_ofPrint h)
      · cases h
    · cases h

end Statement

/-! ### The flag is no token -/

/-- No fragment with the text of the flag is a token: it starts with an underscore. -/
theorem ofText?_loopFlag : TokenKind.ofText? .standard loopFlag = none := by
  decide

/-- The tokens of a source text have the kinds of their texts, since a fragment whose text has no
kind is refused. -/
theorem ofText?_of_parse {v : Vocabulary} {source : String} {statements : List (List Token)}
    (h : Token.parse v source = .ok statements) {tokens : List Token}
    (htokens : tokens ∈ statements) {t : Token} (ht : t ∈ tokens) :
    TokenKind.ofText? v t.text = some t.kind := by
  obtain ⟨fragments, -, hfragments⟩ := exists_of_mem_mapM h htokens
  obtain ⟨fragment, -, hfragment⟩ := exists_of_mem_mapM hfragments ht
  unfold Token.ofFragment at hfragment
  split at hfragment
  · rename_i kind hkind
    cases hfragment
    exact hkind
  · cases hfragment

/-- No statement of a source text names the flag of the loops. So what a loop keeps there cannot
be seen or spoiled by the program. -/
theorem operand_ne_loopFlag {source : String} {ss : List Statement}
    (h : Statement.parse .standard source = .ok ss) {s : Statement} (hs : s ∈ ss) {arg : String}
    (harg : arg ∈ s.operands) : arg ≠ loopFlag := by
  obtain ⟨statements, hparse, hread⟩ := bind_eq_ok h
  obtain ⟨tokens, htokens, hstatement⟩ := exists_of_mem_mapM hread hs
  obtain ⟨t, ht, rfl⟩ := Statement.exists_token_of_mem_operands hstatement arg harg
  intro heq
  have hkind := ofText?_of_parse hparse htokens ht
  rw [heq, ofText?_loopFlag] at hkind
  cases hkind

end Tickscript
