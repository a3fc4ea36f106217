import Mathlib
import Tickscript.Proofs.Source.Assignments
import Tickscript.Proofs.Source.Matches

/-!
# `Tickscript.Proofs.Source.LexicalErrors`: which sources cannot be read

Fragments are cut by one set of rules and classified by another. A fragment is a word, a number or
a literal, or a run of operator characters, and a word or a number may have a parenthesis behind
it (`IsFragmentText`). The rules for kinds leave out two of these shapes: a run that is no
operator, and a number with a parenthesis (`IsUnreadable`). They leave out nothing else, and what
they do not leave out gets the kind that its shape suggests (`kindOf_iff`).

So a source is refused exactly if one of its statements holds such a fragment, and the first of
them is the error (`parse_eq_error_iff`). A statement that is never closed holds no fragments at
all, so it is not looked at.
-/

set_option autoImplicit false

namespace Tickscript

open Tickscript.Text

/-! ### Shapes -/

/-- A word, with or without a parenthesis behind it. Of the boundary characters only the
parenthesis is left on a fragment. -/
def IsWordText (text : List Char) : Prop :=
  ∃ c rest, isLetter c = true ∧ (∀ d ∈ rest, isWordChar d = true) ∧
    (text = c :: rest ∨ text = c :: rest ++ ['('])

/-- A run of digits, of any script. -/
def IsNumberText (text : List Char) : Prop :=
  text ≠ [] ∧ ∀ d ∈ text, isDigit d = true

/-- A text that no kind of token has: a run of operator characters that is not one of the
operators, or a number with a parenthesis behind it. -/
inductive IsUnreadable (text : String) : Prop where
  | operator (run : IsOperatorRun text.toList) (unknown : text ∉ Vocabulary.standard.operators)
  | called {digits : List Char} (number : IsNumberText digits)
      (chars : text.toList = digits ++ ['('])

/-- The kind that the shape of a text asks for. Each part is a promise about one shape, and for
each fragment that is read one of them applies. -/
structure HasKind (text : String) (kind : TokenKind) : Prop where
  word : IsWordText text.toList →
    kind = if text ∈ Vocabulary.standard.keywords then .keyword else .name
  value : IsNumberText text.toList ∨ isLiteralText text.toList = true → kind = .value
  operator : IsOperatorRun text.toList → kind = .operator

/-! ### Kinds by shape -/

/-- A word is a keyword or a name. The parenthesis does not matter: a name may have it, and one
keyword does. -/
theorem ofText?_word {text : String} (h : IsWordText text.toList) :
    TokenKind.ofText? .standard text =
      some (if text ∈ Vocabulary.standard.keywords then .keyword else .name) := by
  obtain ⟨c, rest, first, others, shape⟩ := h
  have tail : ∃ more, text.toList = c :: more ∧
      (more.dropWhile isWordChar).all isBoundary = true := by
    rcases shape with plain | called
    · exact ⟨rest, plain, by rw [List.dropWhile_eq_nil_iff.mpr others]; rfl⟩
    · refine ⟨rest ++ ['('], called, ?_⟩
      rw [List.dropWhile_append_of_pos others]
      decide
  obtain ⟨more, hchars, bounded⟩ := tail
  have notOperator := not_mem_operators hchars (classes_of_isLetter first).2.2
  have name : isNameText text.toList = true := by
    rw [hchars, isNameText, first, bounded]
    rfl
  by_cases keyword : text ∈ Vocabulary.standard.keywords
  · simp only [TokenKind.ofText?, List.contains_eq_mem, keyword, decide_true, if_true]
  · simp only [TokenKind.ofText?, List.contains_eq_mem, keyword, notOperator, name]
    rfl

/-- A text that starts with neither a letter nor a quote, and is neither an operator nor a number,
has no kind. Every rule for kinds looks at one of the four. -/
theorem ofText?_eq_none {text : String} {c : Char} {rest : List Char}
    (hchars : text.toList = c :: rest) (notLetter : isLetter c = false) (notQuote : c ≠ '"')
    (notOperator : text ∉ Vocabulary.standard.operators)
    (notDigits : text.toList.all isDigit = false) :
    TokenKind.ofText? .standard text = none := by
  have notName : isNameText text.toList = false := by
    rw [hchars, isNameText, notLetter]
    rfl
  have notLiteral : isLiteralText text.toList = false := by
    rw [hchars]
    unfold isLiteralText
    split
    · rename_i heq
      cases heq
      exact absurd rfl notQuote
    · rfl
  have notValue : isValueText text.toList = false := by
    rw [isValueText, notDigits, notLiteral, Bool.and_false]
    rfl
  simp only [TokenKind.ofText?, List.contains_eq_mem, not_mem_keywords hchars notLetter,
    notOperator, notName, notValue]
  rfl

/-- The two shapes that are left out have no kind. A run of operator characters starts with one of
them, and a number with a digit. -/
theorem IsUnreadable.ofText? {text : String} (h : IsUnreadable text) :
    TokenKind.ofText? .standard text = none := by
  cases h with
  | operator run unknown =>
    obtain ⟨c, rest, hchars⟩ := List.exists_cons_of_ne_nil run.1
    have first : isOperatorChar c = true := run.2 c (by rw [hchars]; exact List.mem_cons_self)
    obtain ⟨notLetter, notDigit⟩ := classes_of_isOperatorChar first
    have notQuote : c ≠ '"' := by
      rintro rfl
      cases first
    refine ofText?_eq_none hchars notLetter notQuote unknown ?_
    rw [hchars, List.all_cons, notDigit, Bool.false_and]
  | @called digits number chars =>
    obtain ⟨c, rest, rfl⟩ := List.exists_cons_of_ne_nil number.1
    have first : isDigit c = true := number.2 c List.mem_cons_self
    obtain ⟨notLetter, notOperator⟩ := classes_of_isDigit first
    have notQuote : c ≠ '"' := by
      rintro rfl
      exact absurd first (by decide)
    refine ofText?_eq_none chars notLetter notQuote (not_mem_operators chars notOperator) ?_
    -- The parenthesis is no digit.
    rw [chars, List.all_append, show ['('].all isDigit = false by decide, Bool.and_false]

/-- The text of a fragment is unreadable, or it is a word, a number, a literal or an operator. The
cases are those of the shape. -/
theorem IsFragmentText.cases {text : String} (h : IsFragmentText text.toList) :
    IsUnreadable text ∨ IsWordText text.toList ∨ IsNumberText text.toList ∨
      isLiteralText text.toList = true ∨ text ∈ Vocabulary.standard.operators := by
  generalize hchars : text.toList = chars at h
  cases h with
  | literal closed => exact .inr (.inr (.inr (.inl (isLiteralText_literal closed))))
  | bare bare =>
    cases bare with
    | word first others => exact .inr (.inl ⟨_, _, first, others, .inl rfl⟩)
    | number digits => exact .inr (.inr (.inl ⟨List.cons_ne_nil _ _, digits⟩))
  | called bare =>
    cases bare with
    | word first others => exact .inr (.inl ⟨_, _, first, others, .inr rfl⟩)
    | number digits => exact .inl (.called ⟨List.cons_ne_nil _ _, digits⟩ hchars)
  | operator run =>
    by_cases known : text ∈ Vocabulary.standard.operators
    · exact .inr (.inr (.inr (.inr known)))
    · exact .inl (.operator (hchars ▸ run) known)

/-- **What the rules for kinds leave out.** The text of a fragment has no kind exactly if it is
unreadable, and else the kind that its shape asks for. The shapes exclude each other, so a text
has at most one kind to ask for. -/
theorem kindOf_iff {text : String} (h : IsFragmentText text.toList) :
    (TokenKind.ofText? .standard text = none ↔ IsUnreadable text) ∧
      ∀ kind, TokenKind.ofText? .standard text = some kind → HasKind text kind := by
  have literalKind :
      isLiteralText text.toList = true → TokenKind.ofText? .standard text = some .value := by
    intro literal
    obtain ⟨body, closed, hchars⟩ := exists_of_isLiteralText literal
    have same := ofText?_literal closed
    rwa [← hchars, String.ofList_toList] at same
  constructor
  · constructor
    · intro none
      rcases h.cases with unreadable | word | number | literal | operator
      · exact unreadable
      · rw [ofText?_word word] at none
        cases none
      · rw [ofText?_number number.1 number.2] at none
        cases none
      · rw [literalKind literal] at none
        cases none
      · rw [ofText?_of_mem_operators operator] at none
        cases none
    · exact IsUnreadable.ofText?
  · intro kind hkind
    refine ⟨?_, ?_, ?_⟩
    · intro word
      rw [ofText?_word word] at hkind
      exact (Option.some.inj hkind).symm
    · rintro (number | literal)
      · rw [ofText?_number number.1 number.2] at hkind
        exact (Option.some.inj hkind).symm
      · rw [literalKind literal] at hkind
        exact (Option.some.inj hkind).symm
    · intro run
      by_cases known : text ∈ Vocabulary.standard.operators
      · rw [ofText?_of_mem_operators known] at hkind
        exact (Option.some.inj hkind).symm
      · -- A run that is no operator has no kind at all.
        rw [(IsUnreadable.operator run known).ofText?] at hkind
        cases hkind

/-! ### Reading a source -/

/-- A token is what becomes of a fragment: text and line are kept, and the kind is the one that
the shape of the text asks for. -/
structure Reads (f : Fragment) (t : Token) : Prop where
  text : t.text = f.text
  line : t.line = f.line
  kind : HasKind f.text t.kind

/-- The fragments of a source have the texts of fragments, as `Segments` has found. -/
theorem isFragmentText_of_mem_statements {source : String} {f : Fragment}
    (h : f ∈ (Fragment.statements .standard source).flatten) : IsFragmentText f.text.toList := by
  obtain ⟨fragments, hfragments, hf⟩ := List.mem_flatten.mp h
  have mem : fragments.map (·.text) ∈ textsOf (Fragment.statements .standard source) :=
    List.mem_map_of_mem hfragments
  exact (segmented_of_mem_statements mem).shapes _ (List.mem_map_of_mem hf)

/-- A fragment is refused exactly if it is unreadable, and then with its text and its line. There
is no other error in reading a fragment. -/
theorem ofFragment_eq_error_iff {f : Fragment} (h : IsFragmentText f.text.toList)
    {e : CompileError} :
    Token.ofFragment .standard f = .error e ↔
      IsUnreadable f.text ∧ e = .unrecognizedToken f.text f.line := by
  rw [← (kindOf_iff h).1, Token.ofFragment]
  cases TokenKind.ofText? .standard f.text with
  | none =>
    show Except.error _ = Except.error e ↔ _
    rw [Except.error.injEq]
    exact ⟨fun same => ⟨rfl, same.symm⟩, fun same => same.2.symm⟩
  | some kind =>
    constructor
    · intro refused
      cases refused
    · intro same
      cases same.1

/-- A fragment that is not refused becomes a token of the right kind, with its text and its
line. -/
theorem reads_of_ofFragment {f : Fragment} (h : IsFragmentText f.text.toList) {t : Token}
    (ht : Token.ofFragment .standard f = .ok t) : Reads f t := by
  rw [Token.ofFragment] at ht
  cases hkind : TokenKind.ofText? .standard f.text with
  | none =>
    rw [hkind] at ht
    cases ht
  | some kind =>
    rw [hkind] at ht
    cases ht
    exact ⟨rfl, rfl, (kindOf_iff h).2 kind hkind⟩

/-- **The error of a source** is its first unreadable fragment. The fragments are read in their
order, over all statements, and reading stops at the first that is refused. -/
theorem parse_eq_error_iff {source : String} {e : CompileError} :
    Token.parse .standard source = .error e ↔
      ∃ before f after, (Fragment.statements .standard source).flatten = before ++ f :: after ∧
        (∀ g ∈ before, ¬IsUnreadable g.text) ∧ IsUnreadable f.text ∧
        e = .unrecognizedToken f.text f.line := by
  have inRow : Token.parse .standard source = .error e ↔
      (Fragment.statements .standard source).flatten.mapM (Token.ofFragment .standard) =
        .error e := by
    rw [mapM_flatten, ← Token.parse]
    cases Token.parse .standard source with
    | error e' =>
      exact ⟨fun h => congrArg Except.error (Except.error.inj h),
        fun h => congrArg Except.error (Except.error.inj h)⟩
    | ok tokens =>
      constructor
      · intro h
        cases h
      · intro h
        cases h
  rw [inRow, mapM_eq_error_iff]
  -- Both sides split the fragments at the same place, so it is enough to compare what they ask of
  -- the parts.
  refine exists_congr fun before => exists_congr fun f => exists_congr fun after =>
    and_congr_right fun parts => ?_
  have shape : ∀ g ∈ before ++ f :: after, IsFragmentText g.text.toList := by
    intro g hg
    exact isFragmentText_of_mem_statements (parts ▸ hg)
  refine and_congr (forall_congr' fun g => imp_congr_right fun hg => ?_)
    (ofFragment_eq_error_iff (shape f (List.mem_append_right _ List.mem_cons_self)))
  have unreadable :=
    fun e => ofFragment_eq_error_iff (e := e) (shape g (List.mem_append_left _ hg))
  cases hread : Token.ofFragment .standard g with
  | ok t =>
    refine ⟨fun _ bad => ?_, fun _ => ⟨t, rfl⟩⟩
    have refused := (unreadable _).mpr ⟨bad, rfl⟩
    rw [hread] at refused
    cases refused
  | error e' =>
    constructor
    · rintro ⟨t, read⟩
      cases read
    · intro good
      exact absurd ((unreadable e').mp hread).1 good

/-- A source has an error exactly if one of its fragments is unreadable. It need not be the first
one that the error is about. -/
theorem exists_parse_eq_error_iff {source : String} :
    (∃ e, Token.parse .standard source = .error e) ↔
      ∃ f ∈ (Fragment.statements .standard source).flatten, IsUnreadable f.text := by
  constructor
  · rintro ⟨e, he⟩
    obtain ⟨before, f, after, parts, -, bad, -⟩ := parse_eq_error_iff.mp he
    refine ⟨f, ?_, bad⟩
    rw [parts]
    exact List.mem_append_right _ List.mem_cons_self
  · rintro ⟨f, hf, bad⟩
    cases hparse : Token.parse .standard source with
    | error e => exact ⟨e, rfl⟩
    | ok tokens =>
      -- Each fragment that is read has a kind.
      obtain ⟨fragments, hfragments, hf⟩ := List.mem_flatten.mp hf
      obtain ⟨row, hrow⟩ := exists_of_mapM_eq_ok hparse hfragments
      obtain ⟨t, ht⟩ := exists_of_mapM_eq_ok hrow hf
      rw [Token.ofFragment, bad.ofText?] at ht
      cases ht

/-- A source without unreadable fragments is read, and each token is what becomes of its fragment.
The statements stay as they are. -/
theorem exists_parse_eq_ok {source : String}
    (h : ∀ f ∈ (Fragment.statements .standard source).flatten, ¬IsUnreadable f.text) :
    ∃ tokens, Token.parse .standard source = .ok tokens ∧
      List.Forall₂ (List.Forall₂ Reads) (Fragment.statements .standard source) tokens := by
  cases hparse : Token.parse .standard source with
  | error e =>
    obtain ⟨f, hf, bad⟩ := exists_parse_eq_error_iff.mp ⟨e, hparse⟩
    exact absurd bad (h f hf)
  | ok tokens =>
    refine ⟨tokens, rfl, ?_⟩
    have shape : ∀ fragments ∈ Fragment.statements .standard source, ∀ f ∈ fragments,
        IsFragmentText f.text.toList := by
      intro fragments hfragments f hf
      exact isFragmentText_of_mem_statements (List.mem_flatten.mpr ⟨fragments, hfragments, hf⟩)
    refine ((List.forall₂_and_left _ _).mpr ⟨shape, forall₂_of_mapM hparse⟩).imp ?_
    intro fragments row hrow
    refine ((List.forall₂_and_left _ _).mpr ⟨hrow.1, forall₂_of_mapM hrow.2⟩).imp ?_
    intro f t hft
    exact reads_of_ofFragment hft.1 hft.2

/-- **Lexical errors are exactly characterised.** The matches of a source, in their order, are the
fragments of its statements, and then those of a statement that is not closed.

- The source is refused exactly if one of the fragments of its statements is unreadable. What is
  not closed never makes a difference.
- The error is a lexical one, with the text and the line of the first unreadable fragment.
- Else there is one token for each fragment, in the same statements, with its text and its line. A
  word is a keyword or a name, a number and a literal are values, and a run of operator characters
  is an operator. -/
theorem parse_characterised (source : String) :
    ∃ (ms : List Match) (closed : Nat), Successive source.toList 0 ms ∧
      (Fragment.statements .standard source).flatten =
        (ms.take closed).map (Match.fragment source.toList) ∧
      IsUnfinished (ms.drop closed) ∧
      ((∃ e, Token.parse .standard source = .error e) ↔
        ∃ m ∈ ms.take closed, IsUnreadable (m.fragment source.toList).text) ∧
      (∀ e, Token.parse .standard source = .error e →
        ∃ before f after, (Fragment.statements .standard source).flatten = before ++ f :: after ∧
          (∀ g ∈ before, ¬IsUnreadable g.text) ∧ IsUnreadable f.text ∧
          e = .unrecognizedToken f.text f.line ∧ e.category = .lexical) ∧
      ((∀ fragments ∈ Fragment.statements .standard source, ∀ f ∈ fragments,
          ¬IsUnreadable f.text) →
        ∃ tokens, Token.parse .standard source = .ok tokens ∧
          List.Forall₂ (List.Forall₂ Reads) (Fragment.statements .standard source) tokens) := by
  obtain ⟨ms, successive, scanned⟩ := exists_successive source.toList 0
  have shapes : ∀ m ∈ ms, Lexeme.Shape m.text := by
    intro m hm
    exact (successive.isLongest hm).shape
  obtain ⟨groups, rest, parts, gathered, -, unfinished⟩ :=
    @exists_groups source.toList [] ms ⟨nofun, nofun⟩ nofun shapes
  rw [List.nil_append] at parts
  have flat : (Fragment.statements .standard source).flatten =
      (ms.take groups.flatten.length).map (Match.fragment source.toList) := by
    show (Fragment.gather .standard [] (Lexeme.scanFrom 1 source.toList)).flatten = _
    rw [show Lexeme.scanFrom 1 source.toList = ms.map (Match.lexeme source.toList) from scanned,
      show Fragment.gather .standard [] _ = _ from gathered, parts, List.take_left,
      List.map_flatten]
  refine ⟨ms, groups.flatten.length, successive, flat, ?_, ?_, ?_, ?_⟩
  · rw [parts, List.drop_left]
    exact unfinished
  · rw [exists_parse_eq_error_iff, flat]
    simp only [List.mem_map, exists_exists_and_eq_and]
  · intro e he
    obtain ⟨before, f, after, split, good, bad, rfl⟩ := parse_eq_error_iff.mp he
    exact ⟨before, f, after, split, good, bad, rfl, rfl⟩
  · intro good
    refine exists_parse_eq_ok fun f hf => ?_
    obtain ⟨fragments, hfragments, hf⟩ := List.mem_flatten.mp hf
    exact good fragments hfragments f hf

/-- A number with a parenthesis is refused with its line, and the run behind it is not looked at
any more. In a statement that is not closed such a run is not noticed at all. -/
theorem parse_characterised_of_called_number :
    let refused := "a = 1;\nb = ٣( <> 2;"
    let unclosed := "print( b( 1;\nc <> 2"
    Token.parse .standard refused = .error (.unrecognizedToken "٣(" 2) ∧
      (∃ before f after, (Fragment.statements .standard refused).flatten = before ++ f :: after ∧
        (∀ g ∈ before, ¬IsUnreadable g.text) ∧ IsUnreadable f.text ∧ f = ⟨"٣(", 2⟩) ∧
      Fragment.statements .standard unclosed = [[⟨"print(", 1⟩, ⟨"b(", 1⟩, ⟨"1", 1⟩]] ∧
      ∃ tokens, Token.parse .standard unclosed = .ok tokens ∧
        List.Forall₂ (List.Forall₂ Reads) [[⟨"print(", 1⟩, ⟨"b(", 1⟩, ⟨"1", 1⟩]] tokens := by
  intro refused unclosed
  have error : Token.parse .standard refused = .error (.unrecognizedToken "٣(" 2) := by
    decide +kernel
  have closed : Fragment.statements .standard unclosed =
      [[⟨"print(", 1⟩, ⟨"b(", 1⟩, ⟨"1", 1⟩]] := by
    decide +kernel
  have readable : ∀ {text : String}, (TokenKind.ofText? .standard text).isSome = true →
      ¬IsUnreadable text := by
    intro text known unreadable
    rw [unreadable.ofText?] at known
    cases known
  refine ⟨error, ?_, closed, ?_⟩
  · obtain ⟨-, -, -, -, -, -, located, -⟩ := parse_characterised refused
    obtain ⟨before, f, after, split, good, bad, same, -⟩ := located _ error
    refine ⟨before, f, after, split, good, bad, ?_⟩
    have text : "٣(" = f.text := (CompileError.unrecognizedToken.inj same).1
    have line : (2 : Int) = f.line := (CompileError.unrecognizedToken.inj same).2
    exact (Fragment.mk.injEq ..).mpr ⟨text.symm, by omega⟩
  · obtain ⟨-, -, -, -, -, -, -, read⟩ := parse_characterised unclosed
    rw [closed] at read
    refine read ?_
    intro fragments hfragments f hf
    rw [List.mem_singleton.mp hfragments] at hf
    simp only [List.mem_cons, List.not_mem_nil, or_false] at hf
    rcases hf with rfl | rfl | rfl <;> exact readable (by decide)

end Tickscript
