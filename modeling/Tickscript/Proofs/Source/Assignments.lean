import Mathlib
import Tickscript.Proofs.Generator.Assignment
import Tickscript.Proofs.Generator.Landings
import Tickscript.Proofs.ProgramText.Faithful
import Tickscript.Proofs.Source.Segments

/-!
# `Tickscript.Proofs.Source.Assignments`: assignments as they are written

Which assignments can be written down? A word or a number takes the terminator behind it along and
so closes its statement. A literal does not: it ends with its quote, the semicolon behind it is
dropped, and the statement stays open. So an assignment that is written with a space between two
texts and a semicolon at its end compiles to its code if its last operand is a word or a number,
whatever the other operands are. If the last operand is a literal, nothing is left of it
(`compile_assignmentSource`).

The texts of an assignment are scanned one by one (`gather_spaced`), and the last one decides.
Lines do not matter for code, so the tokens may all be taken from the first line
(`compileCode_of_texts`).
-/

set_option autoImplicit false

namespace Tickscript

open Tickscript.Text

/-! ### Operands and operators as texts -/

/-- A word that is not reserved, so that it can be the name of a variable. -/
structure IsFreeWord (text : String) : Prop where
  shape : ∃ c rest, text.toList = c :: rest ∧ isLetter c = true ∧ ∀ d ∈ rest, isWordChar d = true
  free : text ∉ Vocabulary.standard.keywords

/-- The texts of operands: a free word, a number or a literal. -/
inductive IsOperandText (text : String) : Prop where
  | word (word : IsFreeWord text)
  | number (ne : text.toList ≠ []) (digits : ∀ d ∈ text.toList, isDigit d = true)
  | literal (literal : isLiteralText text.toList = true)

/-- The texts of operators that have an instruction: the point and the operators of the table. The
language has more, such as the equals sign. -/
def IsCombiner (text : String) : Prop :=
  text = sensorOperator ∨ (Mnemonics.standard.get? text).isSome = true

/-- A free word is bare, so it takes a terminator along. -/
theorem IsFreeWord.isBare {text : String} (h : IsFreeWord text) : IsBare text.toList := by
  obtain ⟨c, rest, hchars, first, others⟩ := h.shape
  rw [hchars]
  exact .word first others

/-- An operand is bare or a literal, and not both. Which of the two decides what becomes of an
assignment. -/
theorem IsOperandText.isBare_iff {text : String} (h : IsOperandText text) :
    IsBare text.toList ↔ isLiteralText text.toList = false := by
  constructor
  · intro bare
    cases hchars : text.toList with
    | nil => rfl
    | cons c rest =>
      have notQuote : c ≠ '"' := (bare.solid c (by rw [hchars]; exact List.mem_cons_self)).2
      unfold isLiteralText
      split
      · rename_i heq
        cases heq
        exact absurd rfl notQuote
      · rfl
  · intro notLiteral
    cases h with
    | word word => exact word.isBare
    | number ne digits =>
      obtain ⟨c, rest, hchars⟩ := List.exists_cons_of_ne_nil ne
      rw [hchars] at digits ⊢
      exact .number digits
    | literal literal =>
      rw [notLiteral] at literal
      cases literal

/-- An operand can be a fragment of a source. -/
theorem IsOperandText.isFragmentText {text : String} (h : IsOperandText text) :
    IsFragmentText text.toList := by
  cases hliteral : isLiteralText text.toList with
  | true => exact isFragmentText_iff.mpr (.inl hliteral)
  | false => exact .bare (h.isBare_iff.mpr hliteral)

/-- Every operator is a run of operator characters. The operators are looked at one by one. -/
theorem isOperatorRun_of_mem_operators {text : String}
    (h : text ∈ Vocabulary.standard.operators) : IsOperatorRun text.toList := by
  have runs : ∀ op ∈ Vocabulary.standard.operators, IsOperatorRun op.toList := by decide
  exact runs text h

/-! ### Kinds of texts -/

/-- A text that starts like no operator is none. The first character is enough to tell. -/
theorem not_mem_operators {text : String} {c : Char} {rest : List Char}
    (hchars : text.toList = c :: rest) (h : isOperatorChar c = false) :
    text ∉ Vocabulary.standard.operators := by
  intro mem
  have first :=
    (isOperatorRun_of_mem_operators mem).2 c (by rw [hchars]; exact List.mem_cons_self)
  rw [h] at first
  cases first

/-- A text that starts with no letter is no keyword. -/
theorem not_mem_keywords {text : String} {c : Char} {rest : List Char}
    (hchars : text.toList = c :: rest) (h : isLetter c = false) :
    text ∉ Vocabulary.standard.keywords := by
  have letters :
      ∀ word ∈ Vocabulary.standard.keywords, word.toList.head?.all isLetter = true := by
    decide
  intro mem
  have letter := letters text mem
  rw [hchars, List.head?_cons, Option.all_some, h] at letter
  cases letter

/-- A free word is a name, since it is neither reserved nor an operator. -/
theorem IsFreeWord.ofText? {text : String} (h : IsFreeWord text) :
    TokenKind.ofText? .standard text = some .name := by
  obtain ⟨c, rest, hchars, first, others⟩ := h.shape
  have notOperator := not_mem_operators hchars (classes_of_isLetter first).2.2
  have name : isNameText text.toList = true := by
    rw [hchars, isNameText, first, List.dropWhile_eq_nil_iff.mpr others]
    rfl
  simp only [TokenKind.ofText?, List.contains_eq_mem, h.free, notOperator, name]
  rfl

/-- A number is a value, whatever script its digits are of. -/
theorem ofText?_number {text : String} (ne : text.toList ≠ [])
    (digits : ∀ d ∈ text.toList, isDigit d = true) :
    TokenKind.ofText? .standard text = some .value := by
  obtain ⟨c, rest, hchars⟩ := List.exists_cons_of_ne_nil ne
  have first : isDigit c = true := digits c (by rw [hchars]; exact List.mem_cons_self)
  obtain ⟨notLetter, notOperator⟩ := classes_of_isDigit first
  have notName : isNameText text.toList = false := by
    rw [hchars, isNameText, notLetter]
    rfl
  have value : isValueText text.toList = true := by
    rw [isValueText, List.all_eq_true.mpr digits, hchars]
    rfl
  simp only [TokenKind.ofText?, List.contains_eq_mem, not_mem_keywords hchars notLetter,
    not_mem_operators hchars notOperator, notName, value]
  rfl

/-- Operands are read as names or values, and so they can stand where an operand is asked for. -/
theorem IsOperandText.ofText? {text : String} (h : IsOperandText text) :
    TokenKind.ofText? .standard text = some .name ∨
      TokenKind.ofText? .standard text = some .value := by
  cases h with
  | word word => exact .inl word.ofText?
  | number ne digits => exact .inr (ofText?_number ne digits)
  | literal literal =>
    obtain ⟨body, closed, hchars⟩ := exists_of_isLiteralText literal
    have same := ofText?_literal closed
    rw [← hchars, String.ofList_toList] at same
    exact .inr same

/-- What has an instruction is an operator of the language, as the table has no other entries. -/
theorem IsCombiner.mem_operators {text : String} (h : IsCombiner text) :
    text ∈ Vocabulary.standard.operators := by
  rcases h with rfl | h
  · decide
  · have known : ∀ entry ∈ Mnemonics.standard.entries,
        entry.1 ∈ Vocabulary.standard.operators := by
      decide
    rw [Table.get?, List.lookup_isSome_iff] at h
    obtain ⟨entry, hentry, same⟩ := h
    rw [eq_of_beq same]
    exact known entry hentry

/-- An operator is read as one. -/
theorem ofText?_of_mem_operators {text : String} (h : text ∈ Vocabulary.standard.operators) :
    TokenKind.ofText? .standard text = some .operator := by
  have kinds : ∀ op ∈ Vocabulary.standard.operators,
      TokenKind.ofText? .standard op = some .operator := by decide
  exact kinds text h

/-! ### Tokens without their lines -/

/-- The token of a text on the first line. A text without a kind would become a name, but none of
those below is without. -/
def tokenOf (text : String) : Token :=
  ⟨(TokenKind.ofText? .standard text).getD .name, text, 1⟩

/-- Fragments on the first line become the tokens of their texts. -/
theorem mapM_ofFragment {texts : List String}
    (h : ∀ t ∈ texts, (TokenKind.ofText? .standard t).isSome = true) :
    (texts.map fun t => (⟨t, 1⟩ : Fragment)).mapM (Token.ofFragment .standard) =
      .ok (texts.map tokenOf) := by
  induction texts with
  | nil => rfl
  | cons t texts ih =>
    obtain ⟨kind, hkind⟩ := Option.isSome_iff_exists.mp (h t List.mem_cons_self)
    have here : Token.ofFragment .standard ⟨t, 1⟩ = .ok (tokenOf t) := by
      simp only [Token.ofFragment, tokenOf, hkind]
      rfl
    rw [List.map_cons, List.mapM_cons, here, ih fun s hs => h s (List.mem_cons_of_mem _ hs)]
    rfl

/-- A source compiles to the code of any tokens that have its texts. So the lines of a source need
not be worked out. -/
theorem compileCode_of_texts {v : Vocabulary} {m : Mnemonics} {source : String}
    (fragments : List (List Fragment))
    (same : textsOf fragments = textsOf (Fragment.statements v source))
    {tokens : List (List Token)}
    (read : fragments.mapM (·.mapM (Token.ofFragment v)) = .ok tokens) {code : List Instr}
    (made : (compileTokens m tokens).result = .ok code) :
    (compileCode v m source).result = .ok code := by
  obtain ⟨ss, hss, program, rfl⟩ := compileTokens_eq_ok_iff.mp made
  obtain ⟨ss', reads, hss'⟩ := ReadsAs.of_same_texts ⟨tokens, read, hss⟩ same
  obtain ⟨program', hlayout⟩ := program.of_same hss'
  exact compileCode_eq_ok_iff.mpr ⟨ss', reads, program', hlayout.symm⟩

/-- A source compiles to the code of the tokens of its texts, as if they were all on the first
line. -/
theorem compileCode_of_textsOf {source : String} {texts : List (List String)}
    (same : textsOf (Fragment.statements .standard source) = texts)
    (known : ∀ ts ∈ texts, ∀ t ∈ ts, (TokenKind.ofText? .standard t).isSome = true)
    {code : List Instr}
    (made : (compileTokens .standard (texts.map (·.map tokenOf))).result = .ok code) :
    (compileCode .standard .standard source).result = .ok code := by
  let fragments := texts.map fun ts => ts.map fun t => (⟨t, 1⟩ : Fragment)
  have read : fragments.mapM (·.mapM (Token.ofFragment .standard)) =
      .ok (texts.map (·.map tokenOf)) := by
    clear same made
    simp only [fragments]
    induction texts with
    | nil => rfl
    | cons ts texts ih =>
      rw [List.map_cons, List.mapM_cons, mapM_ofFragment (known ts List.mem_cons_self),
        ih fun others hothers => known others (List.mem_cons_of_mem _ hothers)]
      rfl
  refine compileCode_of_texts fragments ?_ read made
  rw [same]
  simp [fragments, textsOf, Function.comp_def]

/-- A literal leaves the statement open: the semicolon behind it starts no lexeme. So the end of
the source is reached, and what is open is dropped. -/
theorem gather_unclosed {text : String} (literal : isLiteralText text.toList = true)
    {opened : List Fragment} (ne : opened ≠ []) (line : Nat) :
    Fragment.gather .standard opened (Lexeme.scanFrom line (text.toList ++ [';'])) = [] := by
  obtain ⟨body, closed, hchars⟩ := exists_of_isLiteralText literal
  have semicolon : ∀ next, Lexeme.scanFrom next [';'] = [] := by
    intro next
    rw [scanFrom_of_none (by decide : lexemeAt? ';' [] = none), Lexeme.scanFrom]
  have scanned : Lexeme.scanFrom line ('"' :: (body ++ '"' :: [';'])) =
      [⟨'"' :: body ++ ['"'], line⟩] := by
    rw [scanFrom_of_some (lexemeAt?_literal closed [';']), semicolon]
  have chars : text.toList ++ [';'] = '"' :: (body ++ '"' :: [';']) := by
    rw [hchars]
    simp
  rw [chars, scanned, Fragment.gather]
  -- A literal ends in a quote, so it is not terminated and goes to what is open.
  simp only [trim_literal, isTerminated_literal, Bool.false_eq_true, if_false,
    List.isEmpty_eq_false_iff.mpr ne, Bool.false_and, Fragment.gather]

/-! ### Texts of instructions -/

/-- The text of code without jumps: on each line a word and the arguments behind it. -/
def plainText (code : List Instr) : String :=
  String.join (code.map fun i => " ".intercalate (i.opcode.word :: i.args) ++ "\n")

/-- Code without jumps is written word by word. Only a jump has a target, which could be too large
to be written. -/
theorem encode_of_ne_jump {code : List Instr} (h : ∀ i ∈ code, i.opcode ≠ .jump) :
    encode code = .ok (plainText code) := by
  have lines : renderAll code =
      .ok (code.map fun i => " ".intercalate (i.opcode.word :: i.args)) := by
    unfold renderAll
    induction code with
    | nil => rfl
    | cons i code ih =>
      rw [List.mapM_cons, Instr.render, if_neg (h i List.mem_cons_self),
        ih fun j hj => h j (List.mem_cons_of_mem _ hj)]
      rfl
  rw [encode, lines]
  show Except.ok (String.join ((code.map _).map (· ++ "\n"))) = _
  rw [List.map_map]
  rfl

/-! ### Written assignments -/

/-- An assignment `dest = first op₁ operand₁ …` by its texts, with the facts that make it one: the
destination is a free word, and the others are operands and operators. -/
structure AssignmentSource where
  dest : String
  first : String
  pairs : List (String × String)
  isFreeWord : IsFreeWord dest
  isOperandText : IsOperandText first
  ofPairs : ∀ pair ∈ pairs, IsCombiner pair.1 ∧ IsOperandText pair.2

namespace AssignmentSource

/-- The texts from left to right, as they are tokens later. -/
def texts (a : AssignmentSource) : List String :=
  a.dest :: "=" :: a.first :: a.pairs.flatMap fun pair => [pair.1, pair.2]

/-- The text of the source: a space between two texts, and a semicolon behind the last. -/
def source (a : AssignmentSource) : String :=
  " ".intercalate a.texts ++ ";"

/-- The operand at the end: that of the last pair, or the only one. -/
def last (a : AssignmentSource) : String :=
  (a.pairs.getLast?.map (·.2)).getD a.first

/-- The instructions of the assignment. Without an operator it is a copy, and with operators there
is one instruction for each. -/
def code (a : AssignmentSource) : List Instr :=
  if a.pairs.isEmpty then [.plain .set [a.dest, a.first]]
  else combineAll .standard a.dest a.first
    (a.pairs.map fun pair => (⟨.operator, pair.1, 1⟩, pair.2))

variable (a : AssignmentSource)

/-- The last text is the last operand, and there are others before it. The first of them is the
destination, which closes no block. -/
theorem exists_texts_eq : ∃ before, a.texts = (a.dest :: before) ++ [a.last] := by
  rcases List.eq_nil_or_concat a.pairs with hnil | ⟨pairs, pair, hpairs⟩
  · exact ⟨["="], by simp [texts, last, hnil]⟩
  · exact ⟨"=" :: a.first :: (pairs.flatMap fun pair => [pair.1, pair.2]) ++ [pair.1], by
      simp [texts, last, hpairs]⟩

/-- The operand at the end is an operand, be it the only one or that of a pair. -/
theorem last_isOperandText : IsOperandText a.last := by
  unfold last
  cases hlast : a.pairs.getLast? with
  | none => exact a.isOperandText
  | some pair => exact (a.ofPairs pair (List.mem_of_getLast? hlast)).2

/-- Every text is a fragment of some kind: a destination, an equals sign, an operand or an
operator. -/
theorem shape_of_mem_texts {t : String} (h : t ∈ a.texts) :
    IsFragmentText t.toList ∧ (TokenKind.ofText? .standard t).isSome = true := by
  have operand : ∀ {s : String}, IsOperandText s →
      IsFragmentText s.toList ∧ (TokenKind.ofText? .standard s).isSome = true := by
    intro s hs
    refine ⟨hs.isFragmentText, ?_⟩
    rcases hs.ofText? with kind | kind <;> rw [kind] <;> rfl
  have operator : ∀ {s : String}, s ∈ Vocabulary.standard.operators →
      IsFragmentText s.toList ∧ (TokenKind.ofText? .standard s).isSome = true := by
    intro s hs
    refine ⟨.operator (isOperatorRun_of_mem_operators hs), ?_⟩
    rw [ofText?_of_mem_operators hs]
    rfl
  simp only [texts, List.mem_cons, List.mem_flatMap, List.not_mem_nil, or_false] at h
  rcases h with rfl | rfl | rfl | ⟨pair, hpair, rfl | rfl⟩
  · exact operand (.word a.isFreeWord)
  · exact operator (by decide)
  · exact operand a.isOperandText
  · exact operator (a.ofPairs pair hpair).1.mem_operators
  · exact operand (a.ofPairs pair hpair).2

/-- The tokens of the texts make an assignment, and the generator makes its code. -/
theorem compileTokens_texts :
    (compileTokens .standard [a.texts.map tokenOf]).result =
      .ok (a.code ++ [.plain .halt []]) := by
  let pairs := a.pairs.map fun pair => (tokenOf pair.1, tokenOf pair.2)
  have tokens : a.texts.map tokenOf =
      assignmentTokens (tokenOf a.dest) (tokenOf "=") (tokenOf a.first) pairs := by
    simp [texts, assignmentTokens, pairs, List.map_flatMap, List.flatMap_map]
  have operand : ∀ {s : String}, IsOperandText s → (tokenOf s).isOperand = true := by
    intro s hs
    rcases hs.ofText? with kind | kind <;> simp [tokenOf, kind, Token.isOperand]
  have operator : ∀ pair ∈ a.pairs, tokenOf pair.1 = ⟨.operator, pair.1, 1⟩ := by
    intro pair hpair
    rw [tokenOf, ofText?_of_mem_operators (a.ofPairs pair hpair).1.mem_operators]
    rfl
  have assignment : IsAssignment (tokenOf a.dest) (tokenOf "=") (tokenOf a.first) pairs := by
    refine ⟨?_, rfl, operand a.isOperandText, fun pair hpair => ?_⟩
    · rw [tokenOf, a.isFreeWord.ofText?]
      rfl
    · obtain ⟨original, horiginal, rfl⟩ := List.mem_map.mp hpair
      exact ⟨by rw [operator original horiginal], operand (a.ofPairs original horiginal).2⟩
  have supported : ∀ pair ∈ pairs, Mnemonics.standard.Supports pair.1 := by
    intro pair hpair
    obtain ⟨original, horiginal, rfl⟩ := List.mem_map.mp hpair
    exact (a.ofPairs original horiginal).1
  -- The tokens of the operators are known, as they are all on the first line.
  have named : namedPairs pairs = a.pairs.map fun pair => (⟨.operator, pair.1, 1⟩, pair.2) := by
    rw [namedPairs, List.map_map]
    exact List.map_congr_left fun pair hpair => Prod.ext (operator pair hpair) rfl
  have added := addTokens_assignmentTokens assignment supported {}
  rw [named, List.isEmpty_map] at added
  rw [tokens, compileTokens]
  simp only [Generator.generate, Generator.addAll, Generator.reset, added]
  rfl

/-- The assignment is the one statement of its source, unless it ends with a literal. Then there
is none, because nothing closes it. -/
theorem textsOf_statements :
    textsOf (Fragment.statements .standard a.source) =
      if isLiteralText a.last.toList then [] else [a.texts] := by
  obtain ⟨before, htexts⟩ := a.exists_texts_eq
  have shapes : ∀ t ∈ a.dest :: before, IsFragmentText t.toList := by
    intro t ht
    exact (a.shape_of_mem_texts (htexts ▸ List.mem_append_left _ ht)).1
  -- before).head? = some t → t ∉ Vocabulary.standard.blockClosers := by :: The destination is no
  -- keyword, so the statement is not closed behind it.
  have start : ∀ t, (a.dest :: before).head? = some t → t ∉ Vocabulary.standard.blockClosers := by
    have reserved : ∀ word ∈ Vocabulary.standard.blockClosers,
        word ∈ Vocabulary.standard.keywords := by
      decide
    intro t ht mem
    cases ht
    exact a.isFreeWord.free (reserved _ mem)
  have chars : a.source.toList =
      (" ".intercalate ((a.dest :: before) ++ [a.last])).toList ++ [';'] := by
    rw [source, String.toList_append, htexts]
    rfl
  rw [Fragment.statements, Lexeme.scan, chars]
  cases hliteral : isLiteralText a.last.toList with
  | false =>
    obtain ⟨fragments, next, hfragments, gathered⟩ := gather_rendering shapes
      (a.last_isOperandText.isBare_iff.mpr hliteral) start (e := ';') (by decide) 1 []
    rw [gathered, Lexeme.scanFrom, Fragment.gather, textsOf, List.map_singleton,
      hfragments, htexts]
    rfl
  -- All texts but the last are gathered, and then the literal ends the source.
  | true =>
    obtain ⟨fragments, next, hfragments, gathered⟩ := gather_spaced shapes [] (fun _ => start) 1
      (a.last.toList ++ [';'])
    have ne : fragments ≠ [] := by
      rintro rfl
      cases hfragments
    rw [toList_intercalate_concat, List.append_assoc]
    exact congrArg textsOf (gathered.trans (gather_unclosed hliteral ne next))

/-- The code of an assignment has no jumps, so its text is the plain one. -/
theorem opcode_ne_jump {i : Instr} (h : i ∈ a.code) : i.opcode ≠ .jump := by
  unfold code at h
  split at h
  · rw [List.mem_singleton.mp h]
    exact nofun
  · obtain ⟨args, rfl | rfl⟩ := computes_of_mem_combineAll h <;> exact nofun

/-- The instructions that are left of an assignment: all of them, or none. -/
theorem compileCode_source :
    (compileCode .standard .standard a.source).result =
      .ok ((if isLiteralText a.last.toList then [] else a.code) ++ [.plain .halt []]) := by
  have texts := a.textsOf_statements
  split at texts
  · rename_i literal
    rw [if_pos literal]
    exact compileCode_of_textsOf texts nofun rfl
  · rename_i bare
    rw [if_neg bare]
    have known : ∀ t ∈ a.texts, (TokenKind.ofText? .standard t).isSome = true := by
      intro t ht
      exact (a.shape_of_mem_texts ht).2
    exact compileCode_of_textsOf texts (List.forall_mem_singleton.mpr known) a.compileTokens_texts

/-- **An assignment can be written if it does not end with a literal.** Its source compiles to the
text of its code and the end of the program. Otherwise its source compiles to the end of the
program alone. -/
theorem compile_assignmentSource :
    compile a.source =
      .ok (plainText
        ((if isLiteralText a.last.toList then [] else a.code) ++ [.plain .halt []])) := by
  have noJump : ∀ i ∈ (if isLiteralText a.last.toList then [] else a.code) ++ [.plain .halt []],
      i.opcode ≠ .jump := by
    intro i hi
    rcases List.mem_append.mp hi with hi | hi
    · split at hi
      · cases hi
      · exact a.opcode_ne_jump hi
    · rw [List.mem_singleton.mp hi]
      exact nofun
  rw [compile, compileText]
  simp only [a.compileCode_source, encode_of_ne_jump noJump]
  rfl

/-- A letter alone is a free word: every keyword has two characters at least. The examples below
are written with such names. -/
theorem isFreeWord_letter {c : Char} (h : isLetter c = true) :
    IsFreeWord (String.singleton c) := by
  refine ⟨⟨c, [], by simp, h, nofun⟩, fun keyword => ?_⟩
  have long : ∀ word ∈ Vocabulary.standard.keywords, word.length ≠ 1 := by decide
  exact long _ keyword (by simp)

/-- A digit alone is a number, and so it is an operand. -/
theorem isOperandText_digit {c : Char} (h : isDigit c = true) :
    IsOperandText (String.singleton c) :=
  .number (by simp) (by simpa using h)

/-- Two chains that are written: `t = p * 3 + f;` ends with a word and `h = t / 2;` with a number.
Each operator is an instruction, and from the second on it starts from what has been computed so
far. -/
theorem compile_assignmentSource_of_chains :
    ∃ total half : AssignmentSource,
      total.source = "t = p * 3 + f;" ∧
      compile total.source = .ok "op mul t p 3\nop add t t f\nend\n" ∧
      half.source = "h = t / 2;" ∧
      compile half.source = .ok "op div h t 2\nend\n" := by
  refine ⟨⟨"t", "p", [("*", "3"), ("+", "f")], isFreeWord_letter (c := 't') (by decide),
      .word (isFreeWord_letter (c := 'p') (by decide)), ?_⟩,
    ⟨"h", "t", [("/", "2")], isFreeWord_letter (c := 'h') (by decide),
      .word (isFreeWord_letter (c := 't') (by decide)), ?_⟩, ?_, ?_, ?_, ?_⟩
  · rw [List.forall_mem_cons, List.forall_mem_singleton]
    exact ⟨⟨.inr (by decide), isOperandText_digit (c := '3') (by decide)⟩,
      .inr (by decide), .word (isFreeWord_letter (c := 'f') (by decide))⟩
  · rw [List.forall_mem_singleton]
    exact ⟨.inr (by decide), isOperandText_digit (c := '2') (by decide)⟩
  · decide
  · exact (compile_assignmentSource _).trans (congrArg Except.ok (by decide))
  · decide
  · exact (compile_assignmentSource _).trans (congrArg Except.ok (by decide))

/-- The source `v = "a";` is an assignment by its texts, but no instruction is left of it. -/
theorem literalSource_not_written :
    ∃ a : AssignmentSource, a.source = "v = \"a\";" ∧ compile a.source = .ok "end\n" ∧
      plainText (a.code ++ [.plain .halt []]) = "set v \"a\"\nend\n" := by
  have word : IsFreeWord "v" := isFreeWord_letter (c := 'v') (by decide)
  have compiled : compile "v = \"a\";" = .ok "end\n" := eq_ok_of_toOption (by decide +kernel)
  have written : " ".intercalate ["v", "=", "\"a\""] ++ ";" = "v = \"a\";" := by decide
  have instructions : plainText [.plain .set ["v", "\"a\""], .plain .halt []] =
      "set v \"a\"\nend\n" := by decide
  refine ⟨⟨"v", "\"a\"", [], word, .literal (by decide), nofun⟩, written, ?_, instructions⟩
  exact (congrArg compile written).trans compiled

end AssignmentSource

end Tickscript
