import Tickscript.Proofs.Numeral.Limits
import Tickscript.Proofs.ProgramText.Words
import Tickscript.Proofs.Script.Names

/-!
# `Tickscript.Proofs.Source.Pieces`: what the texts of tokens are made of

A fragment of a source text is a literal, or it has neither blanks nor quotes (`IsPiece`). The
reason is in the lexemes: the characters of a word, of a number and of an operator are solid, and
of the characters that bound them only the space is not, which is trimmed away. A literal keeps
all of its characters, line breaks among them, because it starts and ends with a quote and a quote
is never trimmed.

A token is never empty. So the text of a token is a piece that can stand as a word of a program
text (`isPiece_of_parse`, `readable_of_pieces`), and it is on one line unless it is a literal with
a line break inside (`IsPiece.not_isLineBreak`).
-/

set_option autoImplicit false

namespace Tickscript

open Tickscript.Text Tickscript.Numeral

/-! ### Classes of characters -/

/-- A class that has none of the blanks and not the quote is a class of solid characters. This is
checked blank by blank, so a class may be as large as a table of all letters. -/
theorem isSolid_of_class {p : Char → Bool}
    (blanks : ∀ range ∈ blankRanges, ∀ k < range.2 + 1 - range.1,
      p (Char.ofNat (range.1 + k)) = false)
    (quote : p '"' = false) {c : Char} (h : p c = true) : IsSolid c := by
  constructor
  · by_contra hblank
    have inTable : inRanges blankRanges c.toNat = true := by simpa [isBlank] using hblank
    obtain ⟨range, hrange, hin⟩ := List.any_eq_true.mp inTable
    simp only [Bool.and_eq_true, decide_eq_true_eq] at hin
    have outside := blanks range hrange (c.toNat - range.1) (by omega)
    have same : range.1 + (c.toNat - range.1) = c.toNat := by omega
    rw [same, Char.ofNat_toNat, h] at outside
    cases outside
  · rintro rfl
    rw [quote] at h
    cases h

/-- A letter is solid. -/
theorem isSolid_of_isLetter {c : Char} (h : isLetter c = true) : IsSolid c :=
  isSolid_of_class (by decide) (by decide) h

/-- A character of a word is solid. The class has the letters of all scripts; only the blanks are
looked up in it. -/
theorem isSolid_of_isWordChar {c : Char} (h : isWordChar c = true) : IsSolid c :=
  isSolid_of_class (by decide +kernel) (by decide) h

/-- A character of an operator is solid. -/
theorem isSolid_of_isOperatorChar {c : Char} (h : isOperatorChar c = true) : IsSolid c :=
  isSolid_of_class (by decide) (by decide) h

/-- A digit of any script is solid. -/
theorem isSolid_of_isDigit {c : Char} (h : isDigit c = true) : IsSolid c :=
  isSolid_of_class (by decide +kernel) (by decide) h

/-- A boundary character is the space or solid. It is part of the lexeme in front of it, and only
the space is trimmed. -/
theorem eq_space_or_isSolid_of_isBoundary {c : Char} (h : isBoundary c = true) :
    c = ' ' ∨ IsSolid c := by
  by_cases hspace : c = ' '
  · exact Or.inl hspace
  · refine Or.inr (isSolid_of_class (p := fun c => isBoundary c && c != ' ') (by decide)
      (by decide) ?_)
    simp [h, hspace]

/-! ### Lexemes -/

/-- A word or a number without anything behind it. Which of the two it is shows at the first
character, since a letter is no digit. -/
inductive IsBare : List Char → Prop where
  | word {c : Char} {rest : List Char} (first : isLetter c = true)
      (others : ∀ d ∈ rest, isWordChar d = true) : IsBare (c :: rest)
  | number {c : Char} {rest : List Char} (digits : ∀ d ∈ c :: rest, isDigit d = true) :
      IsBare (c :: rest)

/-- A run of operator characters. It need not be an operator: nothing is said of its length. -/
def IsOperatorRun (text : List Char) : Prop :=
  text ≠ [] ∧ ∀ d ∈ text, isOperatorChar d = true

/-- A bare text has neither blanks nor quotes, for a word as for a number. -/
theorem IsBare.solid {text : List Char} (h : IsBare text) : ∀ d ∈ text, IsSolid d := by
  intro d hd
  cases h with
  | word first others =>
    rcases List.mem_cons.mp hd with rfl | hd
    · exact isSolid_of_isLetter first
    · exact isSolid_of_isWordChar (others d hd)
  | number digits => exact isSolid_of_isDigit (digits d hd)

/-- An operator run has neither blanks nor quotes, so it is found again as one word. -/
theorem IsOperatorRun.solid {text : List Char} (h : IsOperatorRun text) : ∀ d ∈ text, IsSolid d :=
  fun d hd => isSolid_of_isOperatorChar (h.2 d hd)

/-- The shapes of a lexeme, as the scan makes them:

- `literal`: quotes around a text without quotes;
- `bare`: a word or a number at the end of the source, or in front of a character that is left;
- `bounded`: a word or a number with the boundary character behind it;
- `operator`: an operator run;
- `spaced`: an operator run with the space behind it. -/
inductive Lexeme.Shape : List Char → Prop where
  | literal {body : List Char} (closed : '"' ∉ body) : Shape ('"' :: body ++ ['"'])
  | bare {text : List Char} (bare : IsBare text) : Shape text
  | bounded {text : List Char} {e : Char} (bare : IsBare text) (boundary : isBoundary e = true) :
      Shape (text ++ [e])
  | operator {text : List Char} (run : IsOperatorRun text) : Shape text
  | spaced {text : List Char} (run : IsOperatorRun text) : Shape (text ++ [' '])

/-- A run is made of characters of its class, and at most one character that may end it. What is
left of the text is not mentioned. -/
theorem takeRun_cases (inRun ends : Char → Bool) (cs : List Char) :
    ∃ run, (∀ d ∈ run, inRun d = true) ∧
      ((takeRun inRun ends cs).1 = run ∨
        ∃ e, ends e = true ∧ (takeRun inRun ends cs).1 = run ++ [e]) := by
  refine ⟨cs.takeWhile inRun, fun d hd => List.mem_takeWhile_imp hd, ?_⟩
  unfold takeRun
  cases cs.dropWhile inRun with
  | nil => exact Or.inl rfl
  | cons e rest =>
    by_cases he : ends e = true
    · exact Or.inr ⟨e, he, by simp [he]⟩
    · exact Or.inl (by simp [he])

/-- Every lexeme has one of the shapes. The cases are those of the scan: a quote, a letter, an
operator character or a digit comes first. -/
theorem shape_of_lexemeAt? {c : Char} {cs text rest : List Char}
    (h : lexemeAt? c cs = some (text, rest)) : Lexeme.Shape text := by
  unfold lexemeAt? at h
  split at h
  · simp only [Option.map_eq_some_iff, Prod.mk.injEq] at h
    obtain ⟨cut, hcut, rfl, -⟩ := h
    exact .literal (not_mem_of_cutAtQuote? hcut)
  · split at h
    · rename_i hletter
      cases h
      obtain ⟨run, inside, taken | ⟨e, he, taken⟩⟩ := takeRun_cases isWordChar isBoundary cs
      · rw [taken]
        exact .bare (.word hletter inside)
      · rw [taken]
        exact .bounded (.word hletter inside) he
    · split at h
      · rename_i hoperator
        cases h
        obtain ⟨run, inside, taken⟩ := takeRun_cases isOperatorChar (· == ' ') cs
        have operators : IsOperatorRun (c :: run) :=
          ⟨List.cons_ne_nil c run, List.forall_mem_cons.mpr ⟨hoperator, inside⟩⟩
        rcases taken with taken | ⟨e, he, taken⟩
        · rw [taken]
          exact .operator operators
        · rw [taken, eq_of_beq he]
          exact .spaced operators
      · split at h
        · rename_i hdigit
          cases h
          obtain ⟨run, inside, taken⟩ := takeRun_cases isDigit isBoundary cs
          have digits : IsBare (c :: run) := .number (List.forall_mem_cons.mpr ⟨hdigit, inside⟩)
          rcases taken with taken | ⟨e, he, taken⟩
          · rw [taken]
            exact .bare digits
          · rw [taken]
            exact .bounded digits he
        · cases h

/-- Every lexeme of a text has one of the shapes. By induction on the scan. -/
theorem shape_of_mem_scanFrom {line : Nat} {cs : List Char} {lexeme : Lexeme}
    (h : lexeme ∈ Lexeme.scanFrom line cs) : Lexeme.Shape lexeme.text := by
  fun_induction Lexeme.scanFrom line cs with
  | case1 => cases h
  | case2 line c cs text rest htext ih =>
    rcases List.mem_cons.mp h with rfl | h
    · exact shape_of_lexemeAt? htext
    · exact ih h
  | case3 line c cs hnone ih => exact ih h

/-- What the shapes come to if only blanks and quotes matter: a literal, or solid characters with
or without a space behind them. -/
inductive Lexeme.Form : List Char → Prop where
  | literal {body : List Char} (closed : '"' ∉ body) : Form ('"' :: body ++ ['"'])
  | run {body : List Char} (solid : ∀ d ∈ body, IsSolid d) : Form body
  | spaced {body : List Char} (solid : ∀ d ∈ body, IsSolid d) : Form (body ++ [' '])

/-- The form follows from the shape, because a boundary character is the space or solid. Where
only blanks and quotes matter, the form has fewer cases. -/
theorem Lexeme.Shape.form {text : List Char} (h : Lexeme.Shape text) : Lexeme.Form text := by
  cases h with
  | literal closed => exact .literal closed
  | bare bare => exact .run bare.solid
  | operator run => exact .run run.solid
  | spaced run => exact .spaced run.solid
  | bounded bare boundary =>
    rcases eq_space_or_isSolid_of_isBoundary boundary with rfl | solid
    · exact .spaced bare.solid
    · exact .run (List.forall_mem_append.mpr ⟨bare.solid, List.forall_mem_singleton.mpr solid⟩)

/-- A text that starts with a lexeme. The scan goes on behind it, and the newlines in it are
counted. -/
theorem scanFrom_of_some {line : Nat} {c : Char} {cs text rest : List Char}
    (h : lexemeAt? c cs = some (text, rest)) :
    Lexeme.scanFrom line (c :: cs) =
      ⟨text, line⟩ :: Lexeme.scanFrom (line + text.count '\n') rest := by
  rw [Lexeme.scanFrom]
  split
  · rename_i found after hfound
    rw [h] at hfound
    cases hfound
    rfl
  · rename_i hnone
    rw [h] at hnone
    cases hnone

/-- A space in front of a text is dropped, since no lexeme starts with it. -/
theorem scanFrom_space (line : Nat) (cs : List Char) :
    Lexeme.scanFrom line (' ' :: cs) = Lexeme.scanFrom line cs := by
  have digit : isDigit ' ' = false := by decide
  -- The space is in none of the classes that a lexeme can start with.
  have none : lexemeAt? ' ' cs = none := by simp [lexemeAt?, isLetter, isOperatorChar, digit]
  rw [Lexeme.scanFrom]
  split
  · rename_i hsome
    rw [none] at hsome
    cases hsome
  · rfl

/-- A literal is a lexeme, whatever stands in it. There may be newlines, and all signs but the
quote. -/
theorem lexemeAt?_literal {body : List Char} (closed : '"' ∉ body) (rest : List Char) :
    lexemeAt? '"' (body ++ '"' :: rest) = some ('"' :: body ++ ['"'], rest) := by
  simp [lexemeAt?, cutAtQuote?_of_not_mem closed]

/-! ### Fragments -/

/-- A text as fragments have it: a literal, or solid characters only. The second may be empty, the
text of a token is not. -/
inductive IsPiece : List Char → Prop where
  | literal {body : List Char} (closed : '"' ∉ body) : IsPiece ('"' :: body ++ ['"'])
  | solid {body : List Char} (solid : ∀ d ∈ body, IsSolid d) : IsPiece body

/-- A blank at the end of a text is trimmed, and with it all blanks in front of it. -/
theorem trim_append_space (cs : List Char) : trim (cs ++ [' ']) = trim cs := by
  have hspace : [' '].dropWhile isBlank = [] := by decide
  unfold trim trimBy
  rw [List.dropWhile_append]
  split
  · -- Where the text is blank altogether, nothing is left on either side.
    rename_i hempty
    rw [List.isEmpty_iff.mp hempty, hspace]
  · rw [List.reverse_append, List.reverse_singleton, List.singleton_append,
      List.dropWhile_cons_of_pos (by decide)]

/-- Nothing is trimmed from a literal, because it has quotes at its ends. Blanks inside stay. -/
theorem trim_literal (body : List Char) : trim ('"' :: body ++ ['"']) = '"' :: body ++ ['"'] := by
  have quote : ∀ c ∈ some '"', isBlank c = false := by
    rintro c ⟨⟩
    decide
  exact trimBy_of_ends quote (by rwa [List.getLast?_concat])

/-- Solid characters are not trimmed, since none of them is blank. -/
theorem trim_of_solid {text : List Char} (h : ∀ d ∈ text, IsSolid d) : trim text = text :=
  trimBy_eq_self fun d hd => (h d hd).1

/-- A trimmed lexeme is a piece. The space behind a run is the only thing that is trimmed. -/
theorem Lexeme.Form.isPiece_trim {text : List Char} (h : Lexeme.Form text) :
    IsPiece (trim text) := by
  cases h with
  | literal closed =>
    rw [trim_literal]
    exact .literal closed
  | run solid =>
    rw [trim_of_solid solid]
    exact .solid solid
  | spaced solid =>
    rw [trim_append_space, trim_of_solid solid]
    exact .solid solid

/-- A literal ends in a quote, and that is no terminator. A terminator inside it is not seen. -/
theorem isTerminated_literal (body : List Char) :
    Vocabulary.standard.isTerminated ('"' :: body ++ ['"']) = false := by
  have last : ('"' :: body ++ ['"']).getLast? = some '"' := List.getLast?_concat ..
  rw [Vocabulary.isTerminated, last]
  decide

/-- A piece stays one without its terminator, which is its last character. -/
theorem IsPiece.dropLast {text : List Char} (h : IsPiece text)
    (terminated : Vocabulary.standard.isTerminated text = true) : IsPiece text.dropLast := by
  cases h with
  | @literal body closed =>
    rw [isTerminated_literal] at terminated
    cases terminated
  | solid solid => exact .solid fun d hd => solid d ((List.dropLast_sublist _).subset hd)

/-- What holds of all trimmed lexemes, and of those gathered before, holds of the fragments of a
statement, if terminators may be dropped. By induction on the lexemes. -/
theorem of_mem_gather {P : List Char → Prop} {v : Vocabulary}
    (hdrop : ∀ text, P text → v.isTerminated text = true → P text.dropLast)
    {opened : List Fragment} {lexemes : List Lexeme}
    (hopened : ∀ f ∈ opened, P f.text.toList) (hlexemes : ∀ l ∈ lexemes, P (trim l.text))
    {fragments : List Fragment} (h : fragments ∈ Fragment.gather v opened lexemes) :
    ∀ f ∈ fragments, P f.text.toList := by
  -- One more fragment is added to those of the statement that is being gathered.
  have snoc : ∀ {opened : List Fragment} {added : Fragment},
      (∀ f ∈ opened, P f.text.toList) → P added.text.toList →
      ∀ f ∈ opened ++ [added], P f.text.toList := by
    intro opened added hopened hadded f hf
    rcases List.mem_append.mp hf with hf | hf
    · exact hopened f hf
    · rw [List.mem_singleton.mp hf]
      exact hadded
  induction lexemes generalizing opened with
  | nil => cases h
  | cons lexeme rest ih =>
    have first := hlexemes lexeme List.mem_cons_self
    have others : ∀ l ∈ rest, P (trim l.text) := by
      intro l hl
      exact hlexemes l (List.mem_cons_of_mem _ hl)
    have none : ∀ f ∈ ([] : List Fragment), P f.text.toList := by simp
    have whole : P (String.ofList (trim lexeme.text)).toList := by
      rwa [String.toList_ofList]
    unfold Fragment.gather at h
    dsimp only at h
    split at h
    · -- The statement ends here, and the next one starts with nothing.
      rename_i terminated
      rcases List.mem_cons.mp h with rfl | h
      · exact snoc hopened (by rw [String.toList_ofList]; exact hdrop _ first terminated)
      · exact ih none others h
    · split at h
      · rcases List.mem_cons.mp h with rfl | h
        · exact snoc none whole
        · exact ih none others h
      · refine ih ?_ others h
        exact snoc hopened whole

/-! ### Tokens -/

/-- What holds of all trimmed lexemes of a source holds of its tokens, if terminators may be
dropped. A token has the text of its fragment. -/
theorem of_parse {P : List Char → Prop} {v : Vocabulary}
    (hdrop : ∀ text, P text → v.isTerminated text = true → P text.dropLast) {source : String}
    (hlexemes : ∀ l ∈ Lexeme.scan source, P (trim l.text)) {statements : List (List Token)}
    (h : Token.parse v source = .ok statements) {tokens : List Token}
    (htokens : tokens ∈ statements) {t : Token} (ht : t ∈ tokens) : P t.text.toList := by
  obtain ⟨fragments, hfragments, hmap⟩ := exists_of_mem_mapM h htokens
  obtain ⟨fragment, hfragment, htoken⟩ := exists_of_mem_mapM hmap ht
  have same : t.text = fragment.text := by
    unfold Token.ofFragment at htoken
    split at htoken
    · cases htoken
      rfl
    · cases htoken
  rw [same]
  exact of_mem_gather hdrop (by simp) hlexemes hfragments fragment hfragment

/-- The text of a token is a piece, and it is not empty. An empty fragment has no kind, so it is
no token. -/
theorem isPiece_of_parse {source : String} {statements : List (List Token)}
    (h : Token.parse .standard source = .ok statements) {tokens : List Token}
    (htokens : tokens ∈ statements) {t : Token} (ht : t ∈ tokens) :
    t.text.toList ≠ [] ∧ IsPiece t.text.toList := by
  constructor
  · intro hempty
    -- The kind of a token is that of its text, and the empty text has none.
    have hkind := ofText?_of_parse h htokens ht
    have htext : t.text = "" := String.toList_eq_nil_iff.mp hempty
    rw [htext] at hkind
    cases hkind
  · exact of_parse (fun text => IsPiece.dropLast)
      (fun l hl => (shape_of_mem_scanFrom hl).form.isPiece_trim) h htokens ht

/-! ### Pieces in a program text -/

/-- Pieces that are not empty are read again, in whatever order they stand. None of them is a
quote that is left open. -/
theorem readable_of_pieces {ws : List (List Char)} (h : ∀ w ∈ ws, w ≠ [] ∧ IsPiece w) :
    Readable ws := by
  induction ws with
  | nil => exact .nil
  | cons w ws ih =>
    have rest := ih fun v hv => h v (List.mem_cons_of_mem _ hv)
    obtain ⟨ne, piece⟩ := h w List.mem_cons_self
    cases piece with
    | literal closed => exact .literal closed rest
    | solid solid => exact .plain ⟨ne, solid⟩ rest

/-- Quotes around a text without quotes make a literal. This is how a token is found to be a
value. -/
theorem isLiteralText_literal {body : List Char} (closed : '"' ∉ body) :
    isLiteralText ('"' :: body ++ ['"']) = true := by
  rw [List.cons_append]
  simp [isLiteralText, cutAtQuote?_of_not_mem closed]

/-- A piece holds a line break only if it is a literal. So the condition has to be asked of
literals only. -/
theorem IsPiece.not_isLineBreak {w : List Char} (h : IsPiece w)
    (oneLine : isLiteralText w = true → ∀ c ∈ w, isLineBreak c = false) :
    ∀ c ∈ w, isLineBreak c = false := by
  cases h with
  | literal closed => exact oneLine (isLiteralText_literal closed)
  | solid solid =>
    intro c hc
    exact (solid c hc).not_isLineBreak

end Tickscript
