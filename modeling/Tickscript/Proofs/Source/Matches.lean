import Tickscript.Proofs.Source.Segments

/-!
# `Tickscript.Proofs.Source.Matches`: what becomes of each lexeme of a source

The lexemes of a text can be said without a scan. `Lexeme.Shape` says which texts are lexemes, a
match is the longest lexeme at its place, and matches are successive if none could start earlier
than it does (`Successive`). A text has one list of successive matches, and the scan finds it
(`exists_successive`, `Successive.unique`).

The statements of a source account for these matches. They hold an initial part of the matches, in
their order and each of them once; a match becomes a fragment that is cut but not changed, and
knows its line. What is left behind the last statement has no terminator, and no closer in front,
so no statement was missed (`statements_account`).
-/

set_option autoImplicit false

namespace Tickscript

open Tickscript.Text

/-! ### Matches -/

/-- A text that starts at a place in another one. Nothing is asked of it yet. -/
structure Match where
  start : Nat
  text : List Char
deriving DecidableEq, Repr

/-- A text starts with a lexeme, of whatever length. -/
def StartsLexeme (cs : List Char) : Prop :=
  ∃ text, Lexeme.Shape text ∧ text <+: cs

/-- The longest lexeme that a text starts with. There may be shorter ones, since the start of a
word is a word, too. -/
structure IsLongest (cs text : List Char) : Prop where
  shape : Lexeme.Shape text
  starts : text <+: cs
  longest : ∀ other, Lexeme.Shape other → other <+: cs → other.length ≤ text.length

/-- The place behind a match, from which the next one is looked for. -/
def Match.stop (m : Match) : Nat :=
  m.start + m.text.length

/-- The matches in `cs` from `pos` on, each the first and the longest behind the one before.
Behind the last one no lexeme starts anywhere. -/
def Successive (cs : List Char) : Nat → List Match → Prop
  | pos, [] => ∀ p, pos ≤ p → ¬StartsLexeme (cs.drop p)
  | pos, m :: rest =>
    pos ≤ m.start ∧ (∀ p, pos ≤ p → p < m.start → ¬StartsLexeme (cs.drop p)) ∧
      IsLongest (cs.drop m.start) m.text ∧ Successive cs m.stop rest

namespace Match

/-- Whether a match ends in a terminator. A terminator inside a literal does not count. -/
def terminated (m : Match) : Bool :=
  Vocabulary.standard.isTerminated m.text

/-- Whether a match is a block closer, once its blanks are gone. It has no terminator then. -/
def closes (m : Match) : Bool :=
  Vocabulary.standard.blockClosers.contains (String.ofList (trim m.text))

/-- A match without its blanks, and without its terminator if it has one. -/
def content (m : Match) : List Char :=
  if m.terminated then (trim m.text).dropLast else trim m.text

/-- The line on which a match starts, counted from one. -/
def line (cs : List Char) (m : Match) : Nat :=
  1 + (cs.take m.start).count '\n'

/-- The lexeme that the scan makes of a match. -/
def lexeme (cs : List Char) (m : Match) : Lexeme :=
  ⟨m.text, m.line cs⟩

/-- The fragment that a match becomes: what is left of its text, with the line. -/
def fragment (cs : List Char) (m : Match) : Fragment :=
  ⟨String.ofList m.content, m.line cs⟩

end Match

/-! ### The longest lexeme -/

/-- What may follow the first character of a run: more of its class, and perhaps one character
that ends it. -/
def IsRun (inRun ends : Char → Bool) (text : List Char) : Prop :=
  ∃ run, (∀ d ∈ run, inRun d = true) ∧ (text = run ∨ ∃ e, ends e = true ∧ text = run ++ [e])

/-- No run is longer than the one that is taken. The character that ends a run is not of its
class, so a run cannot go on behind it. -/
theorem IsRun.length_le {inRun ends : Char → Bool} {text cs : List Char}
    (h : IsRun inRun ends text) (disjoint : ∀ e, ends e = true → inRun e = false)
    (starts : text <+: cs) : text.length ≤ (takeRun inRun ends cs).1.length := by
  obtain ⟨run, inside, rfl | ⟨e, he, rfl⟩⟩ := h
  · -- A run without its end is taken as far as its class goes, which is at least as far.
    obtain ⟨rest, rfl⟩ := starts
    have whole : text.length ≤ ((text ++ rest).takeWhile inRun).length := by
      rw [List.takeWhile_append_of_pos inside, List.length_append]
      omega
    unfold takeRun
    split
    · exact whole
    · split
      · rw [List.length_append]
        omega
      · exact whole
  · obtain ⟨rest, rfl⟩ := starts
    rw [List.append_assoc, List.singleton_append, takeRun_append_cons inside (disjoint e he) he]

/-- The first character of a lexeme decides what follows. These are the cases in which the scan
looks at a character. -/
theorem Lexeme.Shape.cons_cases {c : Char} {cs : List Char} (h : Lexeme.Shape (c :: cs)) :
    (c = '"' ∧ ∃ body, '"' ∉ body ∧ cs = body ++ ['"']) ∨
      (isLetter c = true ∧ IsRun isWordChar isBoundary cs) ∨
      (isOperatorChar c = true ∧ IsRun isOperatorChar (· == ' ') cs) ∨
      (isDigit c = true ∧ IsRun isDigit isBoundary cs) := by
  generalize hwhole : c :: cs = whole at h
  cases h with
  | literal closed =>
    cases hwhole
    exact Or.inl ⟨rfl, _, closed, rfl⟩
  | bare bare =>
    cases bare with
    | word first others =>
      cases hwhole
      exact Or.inr (Or.inl ⟨first, _, others, Or.inl rfl⟩)
    | number digits =>
      cases hwhole
      obtain ⟨first, others⟩ := List.forall_mem_cons.mp digits
      exact Or.inr (Or.inr (Or.inr ⟨first, _, others, Or.inl rfl⟩))
  | bounded bare boundary =>
    cases bare with
    | word first others =>
      cases hwhole
      exact Or.inr (Or.inl ⟨first, _, others, Or.inr ⟨_, boundary, rfl⟩⟩)
    | number digits =>
      cases hwhole
      obtain ⟨first, others⟩ := List.forall_mem_cons.mp digits
      exact Or.inr (Or.inr (Or.inr ⟨first, _, others, Or.inr ⟨_, boundary, rfl⟩⟩))
  | operator run =>
    subst hwhole
    obtain ⟨first, others⟩ := List.forall_mem_cons.mp run.2
    exact Or.inr (Or.inr (Or.inl ⟨first, _, others, Or.inl rfl⟩))
  | @spaced text run =>
    obtain ⟨d, rest, rfl⟩ := List.exists_cons_of_ne_nil run.1
    cases hwhole
    obtain ⟨first, others⟩ := List.forall_mem_cons.mp run.2
    exact Or.inr (Or.inr (Or.inl ⟨first, _, others, Or.inr ⟨' ', rfl, rfl⟩⟩))

/-- A bare text is not empty. -/
theorem IsBare.ne_nil {text : List Char} (h : IsBare text) : text ≠ [] := by
  cases h <;> simp

/-- There is no empty lexeme, so the scan always moves on. -/
theorem Lexeme.Shape.ne_nil {text : List Char} (h : Lexeme.Shape text) : text ≠ [] := by
  cases h with
  | literal closed => simp
  | bare bare => exact bare.ne_nil
  | bounded bare boundary => simp
  | operator run => exact run.1
  | spaced run => simp

/-- The scan takes the longest lexeme. Any other lexeme at this place starts with the same
character, so it is of the same kind. -/
theorem isLongest_of_lexemeAt? {c : Char} {cs text rest : List Char}
    (h : lexemeAt? c cs = some (text, rest)) : IsLongest (c :: cs) text := by
  refine ⟨shape_of_lexemeAt? h, ⟨rest, lexemeAt?_append h⟩, ?_⟩
  intro other shape starts
  obtain ⟨d, more, rfl⟩ := List.exists_cons_of_ne_nil shape.ne_nil
  obtain ⟨rfl, follows⟩ := List.cons_prefix_cons.mp starts
  -- The character at the front decides which run follows, in both of them.
  rcases shape.cons_cases with ⟨rfl, body, closed, rfl⟩ | ⟨letter, run⟩ | ⟨operator, run⟩ |
    ⟨digit, run⟩
  · obtain ⟨after, rfl⟩ := follows
    rw [List.append_assoc, List.singleton_append, lexemeAt?_literal closed] at h
    cases h
    simp
  · rw [lexemeAt?_word letter] at h
    cases h
    exact Nat.succ_le_succ (run.length_le (fun e he => (classes_of_isBoundary he).1) follows)
  · have space : ∀ e, (e == ' ') = true → isOperatorChar e = false := by
      intro e he
      rw [eq_of_beq he]
      decide
    rw [lexemeAt?_operator operator] at h
    cases h
    exact Nat.succ_le_succ (run.length_le space follows)
  · rw [lexemeAt?_number digit] at h
    cases h
    exact Nat.succ_le_succ (run.length_le (fun e he => (classes_of_isBoundary he).2.1) follows)

/-- Where the scan finds no lexeme there is none. A quote starts one only if another quote
follows. -/
theorem not_startsLexeme_of_lexemeAt? {c : Char} {cs : List Char} (h : lexemeAt? c cs = none) :
    ¬StartsLexeme (c :: cs) := by
  rintro ⟨text, shape, starts⟩
  obtain ⟨d, more, rfl⟩ := List.exists_cons_of_ne_nil shape.ne_nil
  obtain ⟨rfl, follows⟩ := List.cons_prefix_cons.mp starts
  rcases shape.cons_cases with ⟨rfl, body, closed, rfl⟩ | ⟨letter, -⟩ | ⟨operator, -⟩ | ⟨digit, -⟩
  · obtain ⟨after, rfl⟩ := follows
    rw [List.append_assoc, List.singleton_append, lexemeAt?_literal closed] at h
    cases h
  · rw [lexemeAt?_word letter] at h
    cases h
  · rw [lexemeAt?_operator operator] at h
    cases h
  · rw [lexemeAt?_number digit] at h
    cases h

/-- No lexeme starts at the end of a text. -/
theorem not_startsLexeme_nil : ¬StartsLexeme [] := by
  rintro ⟨text, shape, starts⟩
  exact shape.ne_nil (List.prefix_nil.mp starts)

/-! ### The scan finds the successive matches -/

/-- Where there is a longest lexeme, one starts. -/
theorem IsLongest.startsLexeme {cs text : List Char} (h : IsLongest cs text) : StartsLexeme cs :=
  ⟨text, h.shape, h.starts⟩

/-- There is one longest lexeme at a place: both are initial parts of one text, of the same
length. -/
theorem IsLongest.unique {cs text other : List Char} (h : IsLongest cs text)
    (h' : IsLongest cs other) : text = other := by
  have shorter := h'.longest text h.shape h.starts
  have longer := h.longest other h'.shape h'.starts
  exact (List.prefix_of_prefix_length_le h.starts h'.starts shorter).eq_of_length (by omega)

/-- A place where no lexeme starts can be passed over. This is the step of the scan at such a
character. -/
theorem Successive.of_succ {cs : List Char} {pos : Nat} {ms : List Match}
    (h : Successive cs (pos + 1) ms) (none : ¬StartsLexeme (cs.drop pos)) :
    Successive cs pos ms := by
  have earlier : ∀ p, pos ≤ p → (pos + 1 ≤ p → ¬StartsLexeme (cs.drop p)) →
      ¬StartsLexeme (cs.drop p) := by
    intro p hp later
    by_cases here : p = pos
    · rwa [here]
    · exact later (by omega)
  cases ms with
  | nil => exact fun p hp => earlier p hp (h p)
  | cons m ms =>
    obtain ⟨hstart, between, longest, rest⟩ := h
    exact ⟨by omega, fun p hp hlt => earlier p hp fun hp => between p hp hlt, longest, rest⟩

/-- A text has one list of successive matches at most. By induction on one of the lists. -/
theorem Successive.unique {cs : List Char} {pos : Nat} {ms others : List Match}
    (h : Successive cs pos ms) (h' : Successive cs pos others) : ms = others := by
  induction ms generalizing pos others with
  | nil =>
    cases others with
    | nil => rfl
    | cons m others =>
      obtain ⟨hstart, -, longest, -⟩ := h'
      exact absurd longest.startsLexeme (h m.start hstart)
  | cons m ms ih =>
    obtain ⟨hstart, between, longest, rest⟩ := h
    cases others with
    | nil => exact absurd longest.startsLexeme (h' m.start hstart)
    | cons other others =>
      obtain ⟨hstart', between', longest', rest'⟩ := h'
      -- Neither of the two can start before the other.
      have same : m.start = other.start := by
        rcases Nat.lt_trichotomy m.start other.start with hlt | heq | hlt
        · exact absurd longest.startsLexeme (between' m.start hstart hlt)
        · exact heq
        · exact absurd longest'.startsLexeme (between other.start hstart' hlt)
      rw [← same] at longest'
      have texts : m.text = other.text := longest.unique longest'
      have equal : m = other := by
        cases m
        cases other
        simp_all
      subst equal
      rw [ih rest rest']

/-- **The scan finds the successive matches**, from any place on. By induction on the scan, with
the place and the number of the line kept in step. -/
theorem exists_successive (cs : List Char) (pos : Nat) :
    ∃ ms, Successive cs pos ms ∧
      Lexeme.scanFrom (1 + (cs.take pos).count '\n') (cs.drop pos) =
        ms.map (Match.lexeme cs) := by
  generalize hline : 1 + (cs.take pos).count '\n' = line
  generalize hrest : cs.drop pos = rest
  fun_induction Lexeme.scanFrom line rest generalizing pos with
  | case1 line =>
    refine ⟨[], ?_, rfl⟩
    intro p hp
    -- The scan is at the end of the text, and so is every later place.
    have ended : cs.drop p = [] :=
      List.drop_eq_nil_of_le (by have := List.drop_eq_nil_iff.mp hrest; omega)
    rw [ended]
    exact not_startsLexeme_nil
  | case2 line c tail text rest htext ih =>
    have whole := lexemeAt?_append htext
    have behind : cs.drop (pos + text.length) = rest := by
      rw [← List.drop_drop, hrest, ← whole, List.drop_left]
    -- The newlines in front of the next match are those before this one and those in it.
    have lines : 1 + (cs.take (pos + text.length)).count '\n' = line + text.count '\n' := by
      rw [List.take_add, List.count_append, hrest, ← whole, List.take_left, ← hline,
        Nat.add_assoc]
    obtain ⟨ms, successive, scanned⟩ := ih (pos + text.length) lines behind
    refine ⟨⟨pos, text⟩ :: ms, ⟨Nat.le_refl pos, ?_, ?_, successive⟩, ?_⟩
    · intro p hp hlt
      exact absurd hp (by simpa using hlt)
    · show IsLongest (cs.drop pos) text
      rw [hrest]
      exact isLongest_of_lexemeAt? htext
    · rw [List.map_cons, ← scanned]
      simp only [Match.lexeme, Match.line, hline]
  | case3 line c tail hnone ih =>
    have behind : cs.drop (pos + 1) = tail := by
      rw [← List.drop_drop, hrest]
      rfl
    have lines : 1 + (cs.take (pos + 1)).count '\n' = if c = '\n' then line + 1 else line := by
      rw [List.take_add, hrest, List.count_append, ← hline]
      by_cases newline : c = '\n' <;> simp [newline, Nat.add_assoc]
    obtain ⟨ms, successive, scanned⟩ := ih (pos + 1) lines behind
    refine ⟨ms, successive.of_succ ?_, scanned⟩
    rw [hrest]
    exact not_startsLexeme_of_lexemeAt? hnone

/-- Every successive match is the longest at its place, and so it is a lexeme. -/
theorem Successive.isLongest {cs : List Char} {pos : Nat} {ms : List Match}
    (h : Successive cs pos ms) {m : Match} (hm : m ∈ ms) :
    IsLongest (cs.drop m.start) m.text := by
  induction ms generalizing pos with
  | nil => cases hm
  | cons first ms ih =>
    obtain ⟨-, -, longest, rest⟩ := h
    rcases List.mem_cons.mp hm with rfl | hm
    · exact longest
    · exact ih rest hm

/-! ### Gathering matches -/

/-- The matches of a statement. Of each match something is left, and the statement ends where it
has to and not before. -/
structure IsStatement (group : List Match) : Prop where
  texts : ∀ m ∈ group, m.content ≠ []
  /-- A terminator ends the statement. -/
  inner : ∀ m ∈ group.dropLast, m.terminated = false
  /-- A statement ends with a terminator, unless it is a closer that stands alone. -/
  last : ∃ m, group.getLast? = some m ∧ (m.terminated = true ∨ (m.closes = true ∧ group = [m]))
  /-- Nothing follows a closer at the start. -/
  closer : ∀ m, group.head? = some m → m.closes = true → group = [m]

/-- Matches that make no statement yet: no terminator has come, and the first of them is no
closer. -/
structure IsUnfinished (ms : List Match) : Prop where
  inner : ∀ m ∈ ms, m.terminated = false
  start : ∀ m, ms.head? = some m → m.closes = false

/-- The blanks behind a lexeme do not hide a terminator. Where a lexeme ends in a space there is
no terminator in front of it, because only one character ends a lexeme. -/
theorem Lexeme.Shape.isTerminated_trim {text : List Char} (h : Lexeme.Shape text) :
    Vocabulary.standard.isTerminated (trim text) = Vocabulary.standard.isTerminated text := by
  -- A space at the end is no terminator, and there is none in front of it either.
  have space : ∀ {run : List Char}, IsFragmentText run → trim run = run →
      Vocabulary.standard.isTerminated (trim (run ++ [' '])) =
        Vocabulary.standard.isTerminated (run ++ [' ']) := by
    intro run shape trimmed
    have unended : Vocabulary.standard.isTerminated (run ++ [' ']) = false := by
      simp +decide [Vocabulary.isTerminated]
    rw [trim_append_space, trimmed, shape.not_isTerminated, unended]
  cases h with
  | literal closed => rw [trim_literal]
  | bare bare => rw [trim_of_solid bare.solid]
  | operator run => rw [trim_of_solid run.solid]
  | spaced run => exact space (.operator run) (trim_of_solid run.solid)
  | @bounded text e bare boundary =>
    rcases eq_space_or_isSolid_of_isBoundary boundary with rfl | solid
    · exact space (.bare bare) (trim_of_solid bare.solid)
    · have all : ∀ d ∈ text ++ [e], IsSolid d := by
        intro d hd
        rcases List.mem_append.mp hd with hd | hd
        · exact bare.solid d hd
        · rwa [List.mem_singleton.mp hd]
      rw [trim_of_solid all]

/-- The text of a fragment is not empty. -/
theorem IsFragmentText.ne_nil {text : List Char} (h : IsFragmentText text) : text ≠ [] := by
  cases h with
  | literal closed => simp
  | bare bare => exact bare.ne_nil
  | called bare => simp
  | operator run => exact run.1

/-- Something is left of every lexeme: a terminator stands behind a bare text, never alone. -/
theorem Match.content_ne_nil {m : Match} (h : Lexeme.Shape m.text) : m.content ≠ [] := by
  have same : Vocabulary.standard.isTerminated (trim m.text) = m.terminated := h.isTerminated_trim
  rw [content]
  rcases h.trim_cases with ⟨terminated, bare⟩ | ⟨terminated, fragment⟩
  · rw [if_pos (same ▸ terminated)]
    exact bare.ne_nil
  · rw [if_neg (by rw [← same, terminated]; decide)]
    exact fragment.ne_nil

/-- A terminator completes a statement, and all that was open belongs to it. -/
theorem IsUnfinished.isStatement {opened : List Match} (h : IsUnfinished opened) {m : Match}
    (terminated : m.terminated = true) (texts : ∀ other ∈ opened ++ [m], other.content ≠ []) :
    IsStatement (opened ++ [m]) where
  texts := texts
  inner := by
    rw [List.dropLast_concat]
    exact h.inner
  last := ⟨m, List.getLast?_concat, Or.inl terminated⟩
  closer := by
    intro other head closes
    cases opened with
    | nil =>
      cases head
      rfl
    | cons first opened =>
      rw [h.start other head] at closes
      cases closes

/-- A closer makes a statement alone. It needs no terminator. -/
theorem isStatement_of_closes {m : Match} (closes : m.closes = true) (text : m.content ≠ []) :
    IsStatement [m] where
  texts := List.forall_mem_singleton.mpr text
  inner := nofun
  last := ⟨m, rfl, Or.inr ⟨closes, rfl⟩⟩
  closer := by
    intro other head _
    cases head
    rfl

/-- One more match, and the statement is still open. It must not be a closer if it is the
first. -/
theorem IsUnfinished.concat {opened : List Match} (h : IsUnfinished opened) {m : Match}
    (terminated : m.terminated = false) (start : opened = [] → m.closes = false) :
    IsUnfinished (opened ++ [m]) where
  inner := by
    intro other hother
    rcases List.mem_append.mp hother with hother | hother
    · exact h.inner other hother
    · rwa [List.mem_singleton.mp hother]
  start := by
    intro other head
    cases opened with
    | nil =>
      cases head
      exact start rfl
    | cons first opened => exact h.start other head

/-- Matches are gathered into groups of them, from an open statement on. By induction on the
matches: each of them ends a statement, is one, or joins the open one. -/
theorem exists_groups (cs : List Char) {opened ms : List Match} (unfinished : IsUnfinished opened)
    (texts : ∀ m ∈ opened, m.content ≠ []) (shapes : ∀ m ∈ ms, Lexeme.Shape m.text) :
    ∃ (groups : List (List Match)) (rest : List Match), opened ++ ms = groups.flatten ++ rest ∧
      Fragment.gather .standard (opened.map (Match.fragment cs)) (ms.map (Match.lexeme cs)) =
        groups.map (·.map (Match.fragment cs)) ∧
      (∀ group ∈ groups, IsStatement group) ∧ IsUnfinished rest := by
  induction ms generalizing opened with
  | nil => exact ⟨[], opened, by simp, rfl, nofun, unfinished⟩
  | cons m ms ih =>
    obtain ⟨shape, shapes⟩ := List.forall_mem_cons.mp shapes
    have same : Vocabulary.standard.isTerminated (trim m.text) = m.terminated :=
      shape.isTerminated_trim
    have grown : ∀ other ∈ opened ++ [m], other.content ≠ [] := by
      intro other hother
      rcases List.mem_append.mp hother with hother | hother
      · exact texts other hother
      · rw [List.mem_singleton.mp hother]
        exact Match.content_ne_nil shape
    -- Behind a statement that is complete nothing is open.
    obtain ⟨groups, rest, parts, gathered, statements, pending⟩ :=
      @ih [] ⟨nofun, nofun⟩ nofun shapes
    rw [List.nil_append] at parts
    rw [List.map_nil] at gathered
    rw [List.map_cons, Fragment.gather]
    simp only [Match.lexeme, same]
    cases hterminated : m.terminated with
    | true =>
      have fragment : m.fragment cs = ⟨String.ofList (trim m.text).dropLast, m.line cs⟩ := by
        simp [Match.fragment, Match.content, hterminated]
      refine ⟨(opened ++ [m]) :: groups, rest, by simp [parts], ?_,
        List.forall_mem_cons.mpr ⟨unfinished.isStatement hterminated grown, statements⟩, pending⟩
      simp [gathered, fragment]
    | false =>
      have fragment : m.fragment cs = ⟨String.ofList (trim m.text), m.line cs⟩ := by
        simp [Match.fragment, Match.content, hterminated]
      have closer : Vocabulary.standard.blockClosers.contains (String.ofList (trim m.text)) =
          m.closes := rfl
      simp only [Bool.false_eq_true, if_false, List.isEmpty_map, closer]
      by_cases alone : opened = [] ∧ m.closes = true
      · obtain ⟨rfl, closes⟩ := alone
        refine ⟨[m] :: groups, rest, by simp [parts], ?_, List.forall_mem_cons.mpr
          ⟨isStatement_of_closes closes (Match.content_ne_nil shape), statements⟩, pending⟩
        simp [gathered, fragment, closes]
      · have goesOn : (opened.isEmpty && m.closes) = false := by
          simpa using alone
        have start : opened = [] → m.closes = false := by
          intro empty
          simpa [empty] using alone
        obtain ⟨groups, rest, parts, gathered, statements, pending⟩ :=
          ih (unfinished.concat hterminated start) grown shapes
        refine ⟨groups, rest, by simpa using parts, ?_, statements, pending⟩
        rw [List.map_append] at gathered
        simpa [goesOn, fragment] using gathered

/-- **Segmentation loses, duplicates and reorders nothing.** A source has one list of successive
matches, and there is a number of them that make up the statements, one after the other, each
match as its fragment with its line. The matches of a statement are such that it could not have
ended before, and has to end where it does. Those that are left over could not be a statement. -/
theorem statements_account (source : String) :
    ∃ ms : List Match, (∀ others, Successive source.toList 0 others ↔ others = ms) ∧
      ∃ (j : Nat) (groups : List (List Match)), j ≤ ms.length ∧ groups.flatten = ms.take j ∧
        Fragment.statements .standard source = groups.map (·.map (Match.fragment source.toList)) ∧
        (Fragment.statements .standard source).flatten =
          (ms.take j).map (Match.fragment source.toList) ∧
        (∀ group ∈ groups, IsStatement group) ∧ IsUnfinished (ms.drop j) := by
  obtain ⟨ms, successive, scanned⟩ := exists_successive source.toList 0
  have shapes : ∀ m ∈ ms, Lexeme.Shape m.text := by
    intro m hm
    exact (successive.isLongest hm).shape
  obtain ⟨groups, rest, parts, gathered, statements, pending⟩ :=
    @exists_groups source.toList [] ms ⟨nofun, nofun⟩ nofun shapes
  rw [List.nil_append] at parts
  have made : Fragment.statements .standard source =
      groups.map (·.map (Match.fragment source.toList)) := by
    rw [← gathered, ← scanned]
    rfl
  have taken : ms.take groups.flatten.length = groups.flatten := by
    rw [parts, List.take_left]
  have left : ms.drop groups.flatten.length = rest := by
    rw [parts, List.drop_left]
  refine ⟨ms, ?_, groups.flatten.length, groups, ?_, taken.symm, made, ?_, statements,
    left ▸ pending⟩
  · intro others
    exact ⟨fun h => h.unique successive, fun h => h ▸ successive⟩
  · rw [parts, List.length_append]
    omega
  · rw [made, taken, List.map_flatten]

/-- A literal with a terminator and a line break inside, a closer that stands alone, and a word
that is left over. -/
theorem statements_account_of_trailing_word :
    let source := "say \"a;\nb\" 7;\nendif y"
    ∃ ms first last : List Match, Successive source.toList 0 ms ∧ ms.take 4 = first ++ last ∧
      first.map (Match.fragment source.toList) = [⟨"say", 1⟩, ⟨"\"a;\nb\"", 1⟩, ⟨"7", 2⟩] ∧
      last.map (Match.fragment source.toList) = [⟨"endif", 3⟩] ∧
      IsStatement first ∧ IsStatement last ∧ IsUnfinished (ms.drop 4) := by
  have made : Fragment.statements .standard "say \"a;\nb\" 7;\nendif y" =
      [[⟨"say", 1⟩, ⟨"\"a;\nb\"", 1⟩, ⟨"7", 2⟩], [⟨"endif", 3⟩]] := by decide +kernel
  intro source
  obtain ⟨ms, successive, j, groups, hj, parts, same, flat, statements, pending⟩ :=
    statements_account source
  rw [show Fragment.statements .standard source = _ from made] at same flat
  have four : j = 4 := by
    have count := congrArg List.length flat
    simp only [List.length_map, List.length_take, Nat.min_eq_left hj] at count
    exact count.symm
  obtain ⟨first, others, rfl, hfirst, hothers⟩ := List.map_eq_cons_iff.mp same.symm
  obtain ⟨last, none, rfl, hlast, hnone⟩ := List.map_eq_cons_iff.mp hothers
  cases List.map_eq_nil_iff.mp hnone
  rw [four] at parts pending
  obtain ⟨isFirst, isLast⟩ := List.forall_mem_cons.mp statements
  refine ⟨ms, first, last, (successive ms).mpr rfl, ?_, hfirst, hlast, isFirst,
    isLast last List.mem_cons_self, pending⟩
  rw [← parts]
  simp

end Tickscript
