import Mathlib
import Tickscript.Proofs.Source.Lines
import Tickscript.Proofs.Source.Pieces

/-!
# `Tickscript.Proofs.Source.Segments`: which statements a source can have

Not every list of texts is a statement of some source. Fragments have one of four shapes
(`IsFragmentText`), a statement ends where a terminator was, so behind a bare word or number, and
a block closer in front of a statement is all of it. `Segmented` says this of one statement, and
nothing else is asked: lists of texts of which each is `Segmented` are the statements of a source,
for instance of their canonical rendering (`canonical`), which has a space between two texts, a
semicolon behind a statement and a statement on each line.

The way from a source to `Segmented` follows the scan: each lexeme has a shape (`Lexeme.Shape`),
and trimming and cutting off the terminator make a fragment of it. The way back is the scan of a
canonical rendering. Whatever stands there between two texts is a space, and the space ends every
lexeme that could have gone on; a literal ends by itself, so it may hold anything but a quote.
-/

set_option autoImplicit false

namespace Tickscript

open Tickscript.Text Tickscript.Numeral

/-! ### Shapes of texts -/

/-- The texts that a fragment can have: a literal, a bare text, a bare text with a parenthesis
behind it, or a run of operator characters. -/
inductive IsFragmentText : List Char → Prop where
  | literal {body : List Char} (closed : '"' ∉ body) : IsFragmentText ('"' :: body ++ ['"'])
  | bare {text : List Char} (bare : IsBare text) : IsFragmentText text
  | called {text : List Char} (bare : IsBare text) : IsFragmentText (text ++ ['('])
  | operator {text : List Char} (run : IsOperatorRun text) : IsFragmentText text

/-- The texts of a statement. The last one is bare, so there is one; and if the first one closes a
block, there is no other. -/
structure Segmented (texts : List String) : Prop where
  shapes : ∀ text ∈ texts, IsFragmentText text.toList
  last : ∃ text, texts.getLast? = some text ∧ IsBare text.toList
  closer : ∀ text, texts.head? = some text → text ∈ Vocabulary.standard.blockClosers →
    texts.length = 1

/-- A source with the given texts: a space between two texts, a semicolon behind each statement,
and each statement on a line of its own. -/
def canonical (statements : List (List String)) : String :=
  String.join (statements.map fun texts => " ".intercalate texts ++ ";\n")

/-! ### The shapes can be decided -/

/-- The first character tells a word from a number, and the others are looked at one by one. -/
instance (text : List Char) : Decidable (IsBare text) :=
  match text with
  | [] => isFalse nofun
  | c :: rest =>
    decidable_of_iff
      ((isLetter c = true ∧ rest.all isWordChar = true) ∨ (c :: rest).all isDigit = true) <| by
      rw [List.all_eq_true, List.all_eq_true]
      constructor
      · rintro (⟨first, others⟩ | digits)
        · exact .word first others
        · exact .number digits
      · intro h
        cases h with
        | word first others => exact Or.inl ⟨first, others⟩
        | number digits => exact Or.inr digits

/-- The characters are looked at one by one. -/
instance (text : List Char) : Decidable (IsOperatorRun text) :=
  decidable_of_iff (text ≠ [] ∧ text.all isOperatorChar = true) (by rw [List.all_eq_true]; rfl)

/-- A literal has quotes at both ends and none between. This is what the test for a literal has
found. -/
theorem exists_of_isLiteralText {text : List Char} (h : isLiteralText text = true) :
    ∃ body, '"' ∉ body ∧ text = '"' :: body ++ ['"'] := by
  unfold isLiteralText at h
  split at h
  · rename_i rest
    split at h
    · rename_i body after hcut
      have whole := cutAtQuote?_append hcut
      rw [List.isEmpty_iff.mp h] at whole
      exact ⟨body, not_mem_of_cutAtQuote? hcut, by rw [← whole]; rfl⟩
    · cases h
  · cases h

/-- The shapes of fragments as tests on a text. A parenthesis is looked for at the end. -/
theorem isFragmentText_iff {text : List Char} :
    IsFragmentText text ↔ isLiteralText text = true ∨ IsBare text ∨
      (text.getLast? = some '(' ∧ IsBare text.dropLast) ∨ IsOperatorRun text := by
  constructor
  · intro h
    cases h with
    | literal closed => exact Or.inl (isLiteralText_literal closed)
    | bare bare => exact Or.inr (Or.inl bare)
    | called bare =>
      refine Or.inr (Or.inr (Or.inl ⟨List.getLast?_concat .., ?_⟩))
      rwa [List.dropLast_concat]
    | operator run => exact Or.inr (Or.inr (Or.inr run))
  · rintro (literal | bare | ⟨last, bare⟩ | run)
    · obtain ⟨body, closed, rfl⟩ := exists_of_isLiteralText literal
      exact .literal closed
    · exact .bare bare
    · obtain ⟨word, rfl⟩ := List.getLast?_eq_some_iff.mp last
      rw [List.dropLast_concat] at bare
      exact .called bare
    · exact .operator run

/-- All four shapes can be decided. -/
instance (text : List Char) : Decidable (IsFragmentText text) :=
  decidable_of_iff _ isFragmentText_iff.symm

/-- So it can be decided whether texts are a statement. -/
instance (texts : List String) : Decidable (Segmented texts) :=
  decidable_of_iff
    (texts.all (IsFragmentText ·.toList) = true ∧ (∃ text ∈ texts.getLast?, IsBare text.toList) ∧
      ∀ text ∈ texts.head?, text ∈ Vocabulary.standard.blockClosers → texts.length = 1) <| by
    simp only [List.all_eq_true, decide_eq_true_eq]
    exact ⟨fun h => ⟨h.1, h.2.1, h.2.2⟩, fun h => ⟨h.shapes, h.last, h.closer⟩⟩

/-! ### Classes of characters -/

/-- A letter is a word character, and it is neither a digit nor an operator character. There are
two times 26 letters, and they are looked up one by one. -/
theorem classes_of_isLetter {c : Char} (h : isLetter c = true) :
    isWordChar c = true ∧ isDigit c = false ∧ isOperatorChar c = false := by
  have upper : ∀ k < 26, isWordChar (Char.ofNat (65 + k)) = true ∧
      isDigit (Char.ofNat (65 + k)) = false ∧ isOperatorChar (Char.ofNat (65 + k)) = false := by
    decide +kernel
  have lower : ∀ k < 26, isWordChar (Char.ofNat (97 + k)) = true ∧
      isDigit (Char.ofNat (97 + k)) = false ∧ isOperatorChar (Char.ofNat (97 + k)) = false := by
    decide +kernel
  -- The library speaks of code points, so the two rows of letters are counted through.
  have range : (65 ≤ c.toNat ∧ c.toNat ≤ 90) ∨ (97 ≤ c.toNat ∧ c.toNat ≤ 122) := by
    simp only [isLetter, Char.isAlpha, Char.isUpper, Char.isLower, Bool.or_eq_true,
      Bool.and_eq_true, decide_eq_true_eq] at h
    exact h
  rcases range with range | range
  · have := upper (c.toNat - 65) (by omega)
    rwa [show 65 + (c.toNat - 65) = c.toNat by omega, Char.ofNat_toNat] at this
  · have := lower (c.toNat - 97) (by omega)
    rwa [show 97 + (c.toNat - 97) = c.toNat by omega, Char.ofNat_toNat] at this

/-- An operator character is neither a letter nor a digit. There are nine of them. -/
theorem classes_of_isOperatorChar {c : Char} (h : isOperatorChar c = true) :
    isLetter c = false ∧ isDigit c = false := by
  simp only [isOperatorChar, Bool.or_eq_true, beq_iff_eq] at h
  rcases h with (((((((rfl | rfl) | rfl) | rfl) | rfl) | rfl) | rfl) | rfl) | rfl <;> decide

/-- A digit is neither a letter nor an operator character. It may be of any script, so this is
turned around: what is a letter or an operator character is no digit. -/
theorem classes_of_isDigit {c : Char} (h : isDigit c = true) :
    isLetter c = false ∧ isOperatorChar c = false := by
  constructor
  · by_contra hletter
    rw [(classes_of_isLetter (Bool.not_eq_false _ ▸ hletter)).2.1] at h
    cases h
  · by_contra hoperator
    rw [(classes_of_isOperatorChar (Bool.not_eq_false _ ▸ hoperator)).2] at h
    cases h

/-- A boundary character is no character of a word, a number or an operator. So it ends each of
them. -/
theorem classes_of_isBoundary {c : Char} (h : isBoundary c = true) :
    isWordChar c = false ∧ isDigit c = false ∧ isOperatorChar c = false := by
  simp only [isBoundary, Bool.or_eq_true, beq_iff_eq] at h
  rcases h with (((rfl | rfl) | rfl) | rfl) | rfl <;> decide

/-- A terminator is a boundary character. The two others are the space and the opening
parenthesis. -/
theorem isBoundary_of_mem_terminators {c : Char} (h : c ∈ Vocabulary.standard.terminators) :
    isBoundary c = true := by
  simp only [Vocabulary.standard, List.mem_cons, List.not_mem_nil, or_false] at h
  rcases h with rfl | rfl | rfl <;> rfl

/-- The characters of a bare text are word characters or digits, whichever of the two it is. -/
theorem IsBare.classes {text : List Char} (h : IsBare text) :
    ∀ d ∈ text, isWordChar d = true ∨ isDigit d = true := by
  intro d hd
  cases h with
  | word first others =>
    rcases List.mem_cons.mp hd with rfl | hd
    · exact Or.inl (classes_of_isLetter first).1
    · exact Or.inl (others d hd)
  | number digits => exact Or.inr (digits d hd)

/-! ### Terminators -/

/-- A text without terminators is not terminated. Only the last character is asked, but this is
enough. -/
theorem isTerminated_eq_false {v : Vocabulary} {text : List Char}
    (h : ∀ d ∈ text, d ∉ v.terminators) : v.isTerminated text = false := by
  unfold Vocabulary.isTerminated
  cases hlast : text.getLast? with
  | none => rfl
  | some d => simpa using h d (List.mem_of_getLast? hlast)

/-- No character of a bare text is a terminator. -/
theorem IsBare.not_mem_terminators {text : List Char} (h : IsBare text) :
    ∀ d ∈ text, d ∉ Vocabulary.standard.terminators := by
  intro d hd terminator
  have boundary := classes_of_isBoundary (isBoundary_of_mem_terminators terminator)
  rcases h.classes d hd with hd | hd
  · rw [boundary.1] at hd
    cases hd
  · rw [boundary.2.1] at hd
    cases hd

/-- A fragment text is not terminated: its terminator has been cut off. A literal may hold one,
but it ends in a quote. -/
theorem IsFragmentText.not_isTerminated {text : List Char} (h : IsFragmentText text) :
    Vocabulary.standard.isTerminated text = false := by
  cases h with
  | literal closed => exact isTerminated_literal _
  | bare bare => exact isTerminated_eq_false bare.not_mem_terminators
  | called bare =>
    refine isTerminated_eq_false ?_
    intro d hd
    rcases List.mem_append.mp hd with hd | hd
    · exact bare.not_mem_terminators d hd
    · rw [List.mem_singleton.mp hd]
      decide
  | operator run =>
    refine isTerminated_eq_false ?_
    intro d hd terminator
    have boundary := classes_of_isBoundary (isBoundary_of_mem_terminators terminator)
    rw [run.2 d hd] at boundary
    cases boundary.2.2

/-! ### From a source to fragments -/

/-- A trimmed lexeme has the text of a fragment, or it is a bare text with a terminator. The
second ends a statement. -/
theorem Lexeme.Shape.trim_cases {text : List Char} (h : Lexeme.Shape text) :
    (Vocabulary.standard.isTerminated (trim text) = true ∧ IsBare (trim text).dropLast) ∨
      (Vocabulary.standard.isTerminated (trim text) = false ∧ IsFragmentText (trim text)) := by
  -- What is not trimmed and has the shape of a fragment is one.
  have fragment : ∀ {text : List Char}, IsFragmentText text → trim text = text →
      (Vocabulary.standard.isTerminated (trim text) = true ∧ IsBare (trim text).dropLast) ∨
        (Vocabulary.standard.isTerminated (trim text) = false ∧ IsFragmentText (trim text)) := by
    intro text shape trimmed
    rw [trimmed]
    exact Or.inr ⟨shape.not_isTerminated, shape⟩
  cases h with
  | literal closed => exact fragment (.literal closed) (trim_literal _)
  | bare bare => exact fragment (.bare bare) (trim_of_solid bare.solid)
  | operator run => exact fragment (.operator run) (trim_of_solid run.solid)
  | spaced run =>
    rw [trim_append_space]
    exact fragment (.operator run) (trim_of_solid run.solid)
  | @bounded text e bare boundary =>
    by_cases hspace : e = ' '
    · rw [hspace, trim_append_space]
      exact fragment (.bare bare) (trim_of_solid bare.solid)
    · have solid : ∀ d ∈ text ++ [e], IsSolid d := by
        intro d hd
        rcases List.mem_append.mp hd with hd | hd
        · exact bare.solid d hd
        · rw [List.mem_singleton.mp hd]
          exact (eq_space_or_isSolid_of_isBoundary boundary).resolve_left hspace
      by_cases hcall : e = '('
      · rw [hcall] at solid ⊢
        exact fragment (.called bare) (trim_of_solid solid)
      · -- All other boundary characters are terminators.
        have terminator : e ∈ Vocabulary.standard.terminators := by
          simp only [isBoundary, Bool.or_eq_true, beq_iff_eq] at boundary
          simp only [Vocabulary.standard, List.mem_cons, List.not_mem_nil, or_false]
          tauto
        rw [trim_of_solid solid, List.dropLast_concat]
        exact Or.inl ⟨by simp [Vocabulary.isTerminated, terminator], bare⟩

/-- The fragments of a statement that is still open: they have shapes of fragments, and the first
one closes no block. -/
structure OpenStatement (opened : List Fragment) : Prop where
  shapes : ∀ f ∈ opened, IsFragmentText f.text.toList
  start : ∀ f, opened.head? = some f → f.text ∉ Vocabulary.standard.blockClosers

/-- At the start nothing is open. -/
theorem openStatement_nil : OpenStatement [] where
  shapes f hf := by cases hf
  start f hf := by cases hf

/-- One more fragment, and the statement is still open. It must not be a closer if it is the
first. -/
theorem OpenStatement.concat {opened : List Fragment} (h : OpenStatement opened) {f : Fragment}
    (shape : IsFragmentText f.text.toList)
    (start : opened = [] → f.text ∉ Vocabulary.standard.blockClosers) :
    OpenStatement (opened ++ [f]) where
  shapes g hg := by
    rcases List.mem_append.mp hg with hg | hg
    · exact h.shapes g hg
    · rw [List.mem_singleton.mp hg]
      exact shape
  start g hg := by
    cases opened with
    | nil =>
      cases hg
      exact start rfl
    | cons first rest => exact h.start g hg

/-- A bare text at the end completes a statement. The last fragment is bare because it had a
terminator, or because it is a closer. -/
theorem OpenStatement.segmented {opened : List Fragment} (h : OpenStatement opened) {f : Fragment}
    (bare : IsBare f.text.toList) : Segmented ((opened ++ [f]).map (·.text)) where
  shapes text htext := by
    obtain ⟨g, hg, rfl⟩ := List.mem_map.mp htext
    rcases List.mem_append.mp hg with hg | hg
    · exact h.shapes g hg
    · rw [List.mem_singleton.mp hg]
      exact .bare bare
  last := ⟨f.text, by simp, bare⟩
  closer text htext hcloser := by
    cases opened with
    | nil => rfl
    | cons first rest =>
      cases htext
      exact absurd hcloser (h.start first rfl)

/-- The words that close a block are bare. They are looked at one by one. -/
theorem isBare_of_mem_blockClosers {text : String} (h : text ∈ Vocabulary.standard.blockClosers) :
    IsBare text.toList := by
  have shape : ∀ closer ∈ Vocabulary.standard.blockClosers,
      (closer.toList.head?.all isLetter && closer.toList.tail.all isWordChar) = true ∧
        closer.toList ≠ [] := by
    decide
  obtain ⟨classes, ne⟩ := shape text h
  obtain ⟨c, rest, hcs⟩ := List.exists_cons_of_ne_nil ne
  rw [hcs] at classes ⊢
  simp only [List.head?_cons, Option.all_some, List.tail_cons, Bool.and_eq_true,
    List.all_eq_true] at classes
  exact .word classes.1 classes.2

/-- Every statement that is gathered from lexemes is segmented. By induction on the lexemes, with
what is open as the invariant. -/
theorem segmented_of_mem_gather {opened : List Fragment} {lexemes : List Lexeme}
    (hopened : OpenStatement opened) (hlexemes : ∀ l ∈ lexemes, Lexeme.Shape l.text)
    {fragments : List Fragment} (h : fragments ∈ Fragment.gather .standard opened lexemes) :
    Segmented (fragments.map (·.text)) := by
  induction lexemes generalizing opened with
  | nil => cases h
  | cons lexeme rest ih =>
    have others : ∀ l ∈ rest, Lexeme.Shape l.text := by
      intro l hl
      exact hlexemes l (List.mem_cons_of_mem _ hl)
    rw [Fragment.gather] at h
    rcases (hlexemes lexeme List.mem_cons_self).trim_cases with
      ⟨terminated, bare⟩ | ⟨terminated, shape⟩
    · simp only [terminated, if_true] at h
      rcases List.mem_cons.mp h with rfl | h
      · exact hopened.segmented (by rwa [String.toList_ofList])
      · exact ih openStatement_nil others h
    · simp only [terminated, Bool.false_eq_true, if_false] at h
      split at h
      · rename_i closes
        simp only [Bool.and_eq_true, List.isEmpty_iff, List.contains_iff_mem] at closes
        rcases List.mem_cons.mp h with rfl | h
        · -- A closer in front of a statement is a statement by itself.
          exact openStatement_nil.segmented (isBare_of_mem_blockClosers closes.2)
        · exact ih openStatement_nil others h
      · rename_i closes
        refine ih (hopened.concat (by rwa [String.toList_ofList]) ?_) others h
        intro hempty hcloser
        simp [hempty, hcloser] at closes

/-! ### From texts to a source -/

/-- A run that comes to a character of another class, which ends it and belongs to it. -/
theorem takeRun_append_cons {inRun ends : Char → Bool} {run : List Char}
    (inside : ∀ d ∈ run, inRun d = true) {e : Char} (outside : inRun e = false)
    (he : ends e = true) (rest : List Char) :
    takeRun inRun ends (run ++ e :: rest) = (run ++ [e], rest) := by
  have stop : ¬inRun e = true := by rw [outside]; decide
  unfold takeRun
  rw [List.dropWhile_append_of_pos inside, List.takeWhile_append_of_pos inside,
    List.dropWhile_cons_of_neg stop, List.takeWhile_cons_of_neg stop]
  simp [he]

/-- The lexeme that a letter starts: a run of word characters, and the boundary character behind
it. -/
theorem lexemeAt?_word {c : Char} (h : isLetter c = true) (cs : List Char) :
    lexemeAt? c cs =
      some (c :: (takeRun isWordChar isBoundary cs).1, (takeRun isWordChar isBoundary cs).2) := by
  simp only [lexemeAt?, (isSolid_of_isLetter h).2, if_false, h, if_true]

/-- The lexeme that an operator character starts: a run of them, and the space behind it. -/
theorem lexemeAt?_operator {c : Char} (h : isOperatorChar c = true) (cs : List Char) :
    lexemeAt? c cs =
      some (c :: (takeRun isOperatorChar (· == ' ') cs).1,
        (takeRun isOperatorChar (· == ' ') cs).2) := by
  simp only [lexemeAt?, (isSolid_of_isOperatorChar h).2, if_false,
    (classes_of_isOperatorChar h).1, h, if_true, Bool.false_eq_true]

/-- The lexeme that a digit starts: a run of digits, and the boundary character behind it. -/
theorem lexemeAt?_number {c : Char} (h : isDigit c = true) (cs : List Char) :
    lexemeAt? c cs =
      some (c :: (takeRun isDigit isBoundary cs).1, (takeRun isDigit isBoundary cs).2) := by
  simp only [lexemeAt?, (isSolid_of_isDigit h).2, if_false, (classes_of_isDigit h).1,
    (classes_of_isDigit h).2, h, if_true, Bool.false_eq_true]

/-- A bare text takes the boundary character behind it, a space or a terminator or a
parenthesis. -/
theorem scanFrom_bare {text : List Char} (h : IsBare text) {e : Char} (he : isBoundary e = true)
    (line : Nat) (rest : List Char) :
    ∃ next, Lexeme.scanFrom line (text ++ e :: rest) =
      ⟨text ++ [e], line⟩ :: Lexeme.scanFrom next rest := by
  have boundary := classes_of_isBoundary he
  cases h with
  | @word c body first others =>
    have found := lexemeAt?_word first (body ++ e :: rest)
    rw [takeRun_append_cons others boundary.1 he] at found
    exact ⟨_, scanFrom_of_some found⟩
  | @number c body digits =>
    obtain ⟨first, others⟩ := List.forall_mem_cons.mp digits
    have found := lexemeAt?_number first (body ++ e :: rest)
    rw [takeRun_append_cons others boundary.2.1 he] at found
    exact ⟨_, scanFrom_of_some found⟩

/-- An operator run takes the space behind it. Other characters would stay. -/
theorem scanFrom_operator {text : List Char} (h : IsOperatorRun text) (line : Nat)
    (rest : List Char) :
    ∃ next, Lexeme.scanFrom line (text ++ ' ' :: rest) =
      ⟨text ++ [' '], line⟩ :: Lexeme.scanFrom next rest := by
  obtain ⟨ne, operators⟩ := h
  obtain ⟨c, body, rfl⟩ := List.exists_cons_of_ne_nil ne
  obtain ⟨first, others⟩ := List.forall_mem_cons.mp operators
  have found := lexemeAt?_operator first (body ++ ' ' :: rest)
  rw [takeRun_append_cons others (by decide) (by decide)] at found
  exact ⟨_, scanFrom_of_some found⟩

/-- A fragment text with a space behind it is scanned as one lexeme, and trimming gives the text
back. The space ends every lexeme that could go on, and the others end by themselves. -/
theorem scanFrom_text {text : List Char} (h : IsFragmentText text) (line : Nat)
    (rest : List Char) :
    ∃ lexeme next, Lexeme.scanFrom line (text ++ ' ' :: rest) =
      ⟨lexeme, line⟩ :: Lexeme.scanFrom next rest ∧ trim lexeme = text := by
  cases h with
  | @literal body closed =>
    have found : Lexeme.scanFrom line ('"' :: (body ++ '"' :: ' ' :: rest)) = _ :=
      scanFrom_of_some (lexemeAt?_literal closed (' ' :: rest))
    rw [scanFrom_space] at found
    exact ⟨'"' :: body ++ ['"'], _, by simpa using found, trim_literal body⟩
  | bare bare =>
    obtain ⟨next, scanned⟩ := scanFrom_bare bare (by rfl : isBoundary ' ' = true) line rest
    exact ⟨_, next, scanned, by rw [trim_append_space, trim_of_solid bare.solid]⟩
  -- The parenthesis is taken with the word, and the space behind it is dropped.
  | @called word bare =>
    obtain ⟨next, scanned⟩ :=
      scanFrom_bare bare (by rfl : isBoundary '(' = true) line (' ' :: rest)
    rw [scanFrom_space] at scanned
    refine ⟨word ++ ['('], next, by simpa using scanned, trim_of_solid ?_⟩
    intro d hd
    rcases List.mem_append.mp hd with hd | hd
    · exact bare.solid d hd
    · rw [List.mem_singleton.mp hd]
      decide
  | operator run =>
    obtain ⟨next, scanned⟩ := scanFrom_operator run line rest
    exact ⟨_, next, scanned, by rw [trim_append_space, trim_of_solid run.solid]⟩

/-- A character that starts no lexeme is dropped; a line break counts. This is the other step of
the scan. -/
theorem scanFrom_of_none {c : Char} {cs : List Char} (h : lexemeAt? c cs = none) (line : Nat) :
    Lexeme.scanFrom line (c :: cs) =
      Lexeme.scanFrom (if c = '\n' then line + 1 else line) cs := by
  rw [Lexeme.scanFrom]
  split
  · rename_i hsome
    rw [h] at hsome
    cases hsome
  · rfl

/-- No lexeme starts with a line break, which is in none of the classes. -/
theorem lexemeAt?_newline (cs : List Char) : lexemeAt? '\n' cs = none := by
  have digit : isDigit '\n' = false := by decide
  simp [lexemeAt?, isLetter, isOperatorChar, digit]

/-- A line break is dropped and counted. -/
theorem scanFrom_newline (line : Nat) (cs : List Char) :
    Lexeme.scanFrom line ('\n' :: cs) = Lexeme.scanFrom (line + 1) cs :=
  scanFrom_of_none (lexemeAt?_newline cs) line

/-- A bare text takes the terminator behind it along, and so it ends its statement. The terminator
is cut off, and nothing is open afterwards. -/
theorem gather_terminated {t : String} (bare : IsBare t.toList) {e : Char}
    (he : e ∈ Vocabulary.standard.terminators) (opened : List Fragment) (line : Nat)
    (rest : List Char) :
    ∃ next, Fragment.gather .standard opened (Lexeme.scanFrom line (t.toList ++ e :: rest)) =
      (opened ++ [⟨t, line⟩]) :: Fragment.gather .standard [] (Lexeme.scanFrom next rest) := by
  have classes : isBoundary e = true ∧ IsSolid e := by
    simp only [Vocabulary.standard, List.mem_cons, List.not_mem_nil, or_false] at he
    rcases he with rfl | rfl | rfl <;> decide
  obtain ⟨boundary, solidEnd⟩ := classes
  obtain ⟨next, scanned⟩ := scanFrom_bare bare boundary line rest
  -- Nothing is trimmed, so the terminator is still the last character.
  have solid : ∀ d ∈ t.toList ++ [e], IsSolid d := by
    intro d hd
    rcases List.mem_append.mp hd with hd | hd
    · exact bare.solid d hd
    · rwa [List.mem_singleton.mp hd]
  have terminated : Vocabulary.standard.isTerminated (t.toList ++ [e]) = true := by
    rw [Vocabulary.isTerminated, List.getLast?_concat]
    simpa using he
  refine ⟨next, ?_⟩
  rw [scanned, Fragment.gather]
  simp only [trim_of_solid solid, terminated, if_true, List.dropLast_concat, String.ofList_toList]

/-- Texts with a space behind each are gathered into the open statement. By induction on the
texts, for every line and every open statement. -/
theorem gather_spaced {texts : List String} (shapes : ∀ t ∈ texts, IsFragmentText t.toList)
    (opened : List Fragment)
    (start : opened = [] → ∀ t, texts.head? = some t → t ∉ Vocabulary.standard.blockClosers)
    (line : Nat) (rest : List Char) :
    ∃ fragments next, fragments.map (·.text) = texts ∧
      Fragment.gather .standard opened
          (Lexeme.scanFrom line ((texts.flatMap fun t => t.toList ++ [' ']) ++ rest)) =
        Fragment.gather .standard (opened ++ fragments) (Lexeme.scanFrom next rest) := by
  induction texts generalizing opened line with
  | nil => exact ⟨[], line, rfl, by rw [List.append_nil]; rfl⟩
  | cons t texts ih =>
    have first := shapes t List.mem_cons_self
    have rendered : ((t :: texts).flatMap fun t => t.toList ++ [' ']) ++ rest =
        t.toList ++ ' ' :: ((texts.flatMap fun t => t.toList ++ [' ']) ++ rest) := by
      simp
    obtain ⟨lexeme, next, scanned, trimmed⟩ := scanFrom_text first line
      ((texts.flatMap fun t => t.toList ++ [' ']) ++ rest)
    have open' : (opened.isEmpty && Vocabulary.standard.blockClosers.contains t) = false := by
      by_contra hcloses
      simp only [Bool.not_eq_false, Bool.and_eq_true, List.isEmpty_iff,
        List.contains_iff_mem] at hcloses
      exact start hcloses.1 t rfl hcloses.2
    obtain ⟨fragments, next', htexts, gathered⟩ :=
      ih (fun s hs => shapes s (List.mem_cons_of_mem _ hs)) (opened ++ [⟨t, line⟩]) (by simp) next
    refine ⟨⟨t, line⟩ :: fragments, next', by rw [List.map_cons, htexts], ?_⟩
    rw [rendered, scanned, Fragment.gather]
    simp only [trimmed, first.not_isTerminated, Bool.false_eq_true, if_false,
      String.ofList_toList, open', gathered, List.append_assoc, List.singleton_append]

/-- The rendering of a statement is gathered into this statement, and the scan goes on behind it.
All texts but the last are spaced, and the last one has the terminator. -/
theorem gather_rendering {texts : List String} {last : String}
    (shapes : ∀ t ∈ texts, IsFragmentText t.toList) (bare : IsBare last.toList)
    (start : ∀ t, texts.head? = some t → t ∉ Vocabulary.standard.blockClosers)
    {e : Char} (he : e ∈ Vocabulary.standard.terminators) (line : Nat) (rest : List Char) :
    ∃ fragments next, fragments.map (·.text) = texts ++ [last] ∧
      Fragment.gather .standard []
          (Lexeme.scanFrom line ((" ".intercalate (texts ++ [last])).toList ++ e :: rest)) =
        fragments :: Fragment.gather .standard [] (Lexeme.scanFrom next rest) := by
  obtain ⟨fragments, middle, htexts, spaced⟩ := gather_spaced shapes [] (fun _ => start) line
    (last.toList ++ e :: rest)
  obtain ⟨next, terminated⟩ := gather_terminated bare he fragments middle rest
  refine ⟨fragments ++ [⟨last, middle⟩], next, by rw [List.map_append, htexts]; rfl, ?_⟩
  rw [toList_intercalate_concat, List.append_assoc]
  exact spaced.trans terminated

/-- The rendering of a statement on a line of its own is this statement. What follows is known for
any line it may be on. -/
theorem textsOf_gather_line {texts : List String} {last : String}
    (shapes : ∀ t ∈ texts, IsFragmentText t.toList) (bare : IsBare last.toList)
    (start : ∀ t, texts.head? = some t → t ∉ Vocabulary.standard.blockClosers)
    {e : Char} (he : e ∈ Vocabulary.standard.terminators) {rest : List Char}
    {others : List (List String)}
    (h : ∀ next, textsOf (Fragment.gather .standard [] (Lexeme.scanFrom next rest)) = others)
    (line : Nat) :
    textsOf (Fragment.gather .standard []
        (Lexeme.scanFrom line
          ((" ".intercalate (texts ++ [last])).toList ++ e :: '\n' :: rest))) =
      (texts ++ [last]) :: others := by
  obtain ⟨fragments, next, htexts, gathered⟩ :=
    gather_rendering shapes bare start he line ('\n' :: rest)
  rw [gathered, scanFrom_newline, textsOf, List.map_cons, htexts]
  -- The line break is counted, but it does not matter for what follows.
  exact congrArg _ (h (next + 1))

/-- The canonical rendering has the statements that it was made of. By induction on the
statements, each of which is on a line of its own. -/
theorem textsOf_gather_canonical {statements : List (List String)}
    (h : ∀ texts ∈ statements, Segmented texts) (line : Nat) :
    textsOf (Fragment.gather .standard [] (Lexeme.scanFrom line (canonical statements).toList)) =
      statements := by
  induction statements generalizing line with
  | nil => simp [canonical, Lexeme.scanFrom, Fragment.gather, textsOf]
  | cons texts statements ih =>
    have segmented := h texts List.mem_cons_self
    have rendered : (canonical (texts :: statements)).toList =
        (" ".intercalate texts).toList ++ ';' :: '\n' :: (canonical statements).toList := by
      simp [canonical]
    obtain ⟨last, hlast, bare⟩ := segmented.last
    obtain ⟨before, rfl⟩ := List.getLast?_eq_some_iff.mp hlast
    -- A closer in front is all of its statement, so there is nothing before the last text.
    have start : ∀ t, before.head? = some t → t ∉ Vocabulary.standard.blockClosers := by
      intro t ht hcloser
      have alone := segmented.closer t (by rw [List.head?_append, ht]; rfl) hcloser
      rw [List.length_append, List.length_singleton, Nat.add_eq_right, List.length_eq_zero_iff]
        at alone
      rw [alone] at ht
      cases ht
    rw [rendered]
    exact textsOf_gather_line
      (fun t ht => segmented.shapes t (List.mem_append_left _ ht)) bare start
      (by decide) (ih fun others hothers => h others (List.mem_cons_of_mem _ hothers)) line

/-- The statements of every source are segmented, since the scan of a source starts with nothing
open. -/
theorem segmented_of_mem_statements {source : String} {texts : List String}
    (h : texts ∈ textsOf (Fragment.statements .standard source)) : Segmented texts := by
  obtain ⟨fragments, hfragments, rfl⟩ := List.mem_map.mp h
  exact segmented_of_mem_gather openStatement_nil (fun l => shape_of_mem_scanFrom) hfragments

/-- **The image of the segmenter is exact.** Lists of texts are the statements of some source
exactly if each of them is segmented. Then their canonical rendering is such a source; so every
source that compiles can be replaced by the canonical rendering of its statements, which compiles
to the same program text. -/
theorem exists_source_iff_segmented (statements : List (List String)) :
    ((∃ source, textsOf (Fragment.statements .standard source) = statements) ↔
        ∀ texts ∈ statements, Segmented texts) ∧
      ((∀ texts ∈ statements, Segmented texts) →
        textsOf (Fragment.statements .standard (canonical statements)) = statements) ∧
      ∀ source program, compile source = .ok program →
        compile (canonical (textsOf (Fragment.statements .standard source))) = .ok program := by
  have rendering : ∀ statements : List (List String), (∀ texts ∈ statements, Segmented texts) →
      textsOf (Fragment.statements .standard (canonical statements)) = statements := by
    intro statements h
    exact textsOf_gather_canonical h 1
  refine ⟨⟨?_, fun h => ⟨canonical statements, rendering statements h⟩⟩, rendering statements, ?_⟩
  · rintro ⟨source, rfl⟩ texts htexts
    exact segmented_of_mem_statements htexts
  · intro source program h
    have same := rendering (textsOf (Fragment.statements .standard source))
      fun texts => segmented_of_mem_statements
    exact compile_of_same_texts same.symm h

/-- A literal may hold spaces, line breaks and terminators, and a word that opens a block may
stand inside a statement; but a closer in front has nothing behind it. -/
theorem exists_source_of_spread_literal :
    let statements := [["print(", "\"a; \nb\"", "screen"], ["endif"], ["x", "=<", "if(", "7"]]
    let source := "x =1,+\n2:"
    let program := "op add x 1 2\nend\n"
    (∀ texts ∈ statements, Segmented texts) ∧
      textsOf (Fragment.statements .standard (canonical statements)) = statements ∧
      (¬∃ source, textsOf (Fragment.statements .standard source) = [["endif", "x"]]) ∧
      compile source = .ok program ∧
      compile (canonical (textsOf (Fragment.statements .standard source))) = .ok program := by
  intro statements source program
  have segmented : ∀ texts ∈ statements, Segmented texts := by decide
  have mixed : ¬∀ texts ∈ [["endif", "x"]], Segmented texts := by decide
  have compiled : compile "x =1,+\n2:" = .ok "op add x 1 2\nend\n" := by cbv
  obtain ⟨-, rendering, same⟩ := exists_source_iff_segmented statements
  exact ⟨segmented, rendering segmented, fun h => mixed ((exists_source_iff_segmented _).1.mp h),
    compiled, same source program compiled⟩

end Tickscript
