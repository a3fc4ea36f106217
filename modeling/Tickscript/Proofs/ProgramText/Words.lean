import Mathlib.Data.List.TakeWhile
import Tickscript.ProgramText

/-!
# `Tickscript.Proofs.ProgramText.Words`: words and lines, written and read again

A program text is written with one space between two words and one newline after each line. This
file says when words and lines written in this way are read as the same words and lines again.

For lines it is enough that none holds a line break (`splitLines_unlines`). For words it depends
on their order. A double quote opens a literal if another quote follows somewhere on the line, and
it belongs to a run of characters otherwise. So a word that starts with a quote and does not end
at the next one can only stand where no quote comes after it. `Readable` is this condition. It
holds of the words of every line (`readable_words`), however they were spaced, and words that
satisfy it are read again (`words_spaced`).
-/

set_option autoImplicit false

namespace Tickscript

open Tickscript.Text

/-! ### One word -/

/-- A blank is not a quote, so a line is skipped over its blanks without opening a literal. -/
theorem ne_quote_of_isBlank {c : Char} (h : isBlank c = true) : c ≠ '"' := by
  rintro rfl
  revert h
  decide

/-- The two kinds of words: a literal, up to the next quote, and a run, up to the next blank. A
run starts with a quote only if there is no other quote after it. -/
theorem wordAt?_cases {c : Char} {cs word rest : List Char}
    (h : wordAt? c cs = some (word, rest)) :
    (∃ body, c = '"' ∧ '"' ∉ body ∧ cs = body ++ '"' :: rest ∧ word = '"' :: body ++ ['"']) ∨
      ((c = '"' → '"' ∉ cs) ∧ isBlank c = false ∧ word = c :: cs.takeWhile (! isBlank ·) ∧
        rest = cs.dropWhile (! isBlank ·)) := by
  unfold wordAt? at h
  dsimp only at h
  split at h
  · rename_i hc
    split at h
    · rename_i body after hcut
      simp only [Option.some.injEq, Prod.mk.injEq] at h
      obtain ⟨rfl, rfl⟩ := h
      exact Or.inl ⟨body, hc, not_mem_of_cutAtQuote? hcut, (cutAtQuote?_append hcut).symm, rfl⟩
    · rename_i hcut
      simp only [Option.some.injEq, Prod.mk.injEq] at h
      refine Or.inr ⟨fun _ => cutAtQuote?_eq_none_iff.mp hcut, ?_, h.1.symm, h.2.symm⟩
      rw [hc]
      decide
  · rename_i hc
    split at h
    · cases h
    · rename_i hblank
      simp only [Option.some.injEq, Prod.mk.injEq] at h
      exact Or.inr ⟨fun heq => absurd heq hc, by simpa using hblank, h.1.symm, h.2.symm⟩

/-- A literal is a word, whatever follows it. There may be blanks inside, and none is needed
behind. -/
theorem wordAt?_literal {body : List Char} (closed : '"' ∉ body) (rest : List Char) :
    wordAt? '"' (body ++ '"' :: rest) = some ('"' :: body ++ ['"'], rest) := by
  -- The next quote is the one that closes it.
  simp [wordAt?, cutAtQuote?_of_not_mem closed]

/-- A run is a word if a blank or the end of the line follows it. If it starts with a quote, there
must be no quote behind. -/
theorem wordAt?_run {c : Char} {cs rest : List Char} (start : c = '"' → '"' ∉ cs ++ rest)
    (solid : ∀ d ∈ c :: cs, isBlank d = false)
    (ends : ∀ d, rest.head? = some d → isBlank d = true) :
    wordAt? c (cs ++ rest) = some (c :: cs, rest) := by
  have inside : ∀ d ∈ cs, (! isBlank d) = true := by
    intro d hd
    simp [solid d (List.mem_cons_of_mem _ hd)]
  have taken : (cs ++ rest).takeWhile (! isBlank ·) = cs := by
    rw [List.takeWhile_append_of_pos inside]
    cases rest with
    | nil => simp
    | cons d rest => simp [ends d rfl]
  have dropped : (cs ++ rest).dropWhile (! isBlank ·) = rest := by
    rw [List.dropWhile_append_of_pos inside]
    cases rest with
    | nil => rfl
    | cons d rest => simp [ends d rfl]
  unfold wordAt?
  simp only [taken, dropped]
  by_cases hc : c = '"'
  · rw [if_pos hc, cutAtQuote?_eq_none_iff.mpr (start hc)]
  · rw [if_neg hc, if_neg (by simp [solid c List.mem_cons_self])]

/-! ### The words of a line -/

/-- An empty line has no words. -/
theorem words_nil : words [] = [] := by
  rw [words]

/-- A line that starts with a word. The scan goes on behind the word. -/
theorem words_cons_of_some {c : Char} {cs word rest : List Char}
    (h : wordAt? c cs = some (word, rest)) : words (c :: cs) = word :: words rest := by
  rw [words]
  split
  · rename_i found after hfound
    rw [h] at hfound
    cases hfound
    rfl
  · rename_i hnone
    rw [h] at hnone
    cases hnone

/-- A blank in front of a line is skipped, as no word starts with one. -/
theorem words_cons_blank {c : Char} (h : isBlank c = true) (cs : List Char) :
    words (c :: cs) = words cs := by
  have hnone : wordAt? c cs = none := by
    simp [wordAt?, ne_quote_of_isBlank h, h]
  rw [words]
  split
  · rename_i hsome
    rw [hnone] at hsome
    cases hsome
  · rfl

/-- The characters of the words are characters of the line. By induction on the scan; both kinds
of words are parts of what was left of the line. -/
theorem mem_of_mem_words {cs word : List Char} (h : word ∈ words cs) :
    ∀ d ∈ word, d ∈ cs := by
  fun_induction words cs with
  | case1 => cases h
  | case2 c cs found rest hfound ih =>
    intro d hd
    have stays : ∀ e ∈ rest, e ∈ c :: cs := by
      intro e he
      rcases wordAt?_cases hfound with ⟨body, -, -, rfl, -⟩ | ⟨-, -, -, rfl⟩
      · simp [he]
      · exact List.mem_cons_of_mem _ ((List.dropWhile_sublist _).subset he)
    rcases List.mem_cons.mp h with rfl | h
    · rcases wordAt?_cases hfound with ⟨body, rfl, -, rfl, rfl⟩ | ⟨-, -, rfl, -⟩
      · simp only [List.cons_append, List.mem_cons, List.mem_append, List.not_mem_nil,
          or_false] at hd ⊢
        rcases hd with hd | hd | hd
        · exact Or.inl hd
        · exact Or.inr (Or.inl hd)
        · exact Or.inl hd
      · rcases List.mem_cons.mp hd with rfl | hd
        · exact List.mem_cons_self
        · exact List.mem_cons_of_mem _ ((List.takeWhile_sublist _).subset hd)
    · exact stays d (ih h d hd)
  | case3 c cs hnone ih => exact fun d hd => List.mem_cons_of_mem _ (ih h d hd)

/-! ### Words that are read again -/

/-- Words in an order in which a line can have them:

- `literal`: a text between quotes, without a quote inside;
- `run`: characters that are not blank, the first of them no quote;
- `unclosed`: a quote and characters that are not blank, with no quote among them nor in any later
  word. -/
inductive Readable : List (List Char) → Prop where
  | nil : Readable []
  | literal {body : List Char} {ws : List (List Char)} (closed : '"' ∉ body)
      (rest : Readable ws) : Readable (('"' :: body ++ ['"']) :: ws)
  | run {c : Char} {cs : List Char} {ws : List (List Char)} (start : c ≠ '"')
      (solid : ∀ d ∈ c :: cs, isBlank d = false) (rest : Readable ws) : Readable ((c :: cs) :: ws)
  | unclosed {cs : List Char} {ws : List (List Char)} (solid : ∀ d ∈ cs, isBlank d = false)
      (last : ∀ w ∈ cs :: ws, '"' ∉ w) (rest : Readable ws) : Readable (('"' :: cs) :: ws)

/-- The words after the first one are in such an order too. What an order forbids is about a word
and those behind it. -/
theorem Readable.tail {w : List Char} {ws : List (List Char)} (h : Readable (w :: ws)) :
    Readable ws := by
  cases h with
  | literal closed rest => exact rest
  | run start solid rest => exact rest
  | unclosed solid last rest => exact rest

/-- A character that neither ends a word nor opens a literal. Letters, digits and most signs are
solid. -/
def IsSolid (c : Char) : Prop :=
  isBlank c = false ∧ c ≠ '"'

/-- Both parts can be decided. -/
instance (c : Char) : Decidable (IsSolid c) :=
  inferInstanceAs (Decidable (_ ∧ _))

/-- A text that is a word wherever it stands: it is not empty, and all its characters are
solid. -/
def IsPlainWord (w : List Char) : Prop :=
  w ≠ [] ∧ ∀ d ∈ w, IsSolid d

/-- The characters of a word can be looked at one by one, so finite tables of words can be
decided. -/
instance (w : List Char) : Decidable (IsPlainWord w) :=
  decidable_of_iff (w ≠ [] ∧ w.all fun d => IsSolid d) (by simp [IsPlainWord])

/-- A plain word may stand in front of any words. It is a run that does not start with a quote. -/
theorem Readable.plain {w : List Char} {ws : List (List Char)} (plain : IsPlainWord w)
    (rest : Readable ws) : Readable (w :: ws) := by
  cases w with
  | nil => exact absurd rfl plain.1
  | cons c cs =>
    exact .run (plain.2 c List.mem_cons_self).2 (fun d hd => (plain.2 d hd).1) rest

/-- The words of any line can be read again. By induction on the scan, with a literal or a run as
the first word. -/
theorem readable_words (cs : List Char) : Readable (words cs) := by
  fun_induction words cs with
  | case1 => exact .nil
  | case2 c cs word rest hword ih =>
    rcases wordAt?_cases hword with ⟨body, -, closed, -, rfl⟩ | ⟨start, hblank, rfl, rfl⟩
    · exact .literal closed ih
    · have taken : ∀ d ∈ cs.takeWhile (! isBlank ·), isBlank d = false := by
        intro d hd
        simpa using List.mem_takeWhile_imp hd
      by_cases hc : c = '"'
      · -- No quote is left in the line, so there is none in the words that come from it.
        subst hc
        have none := start rfl
        refine .unclosed taken (fun w hw => ?_) ih
        rcases List.mem_cons.mp hw with rfl | hw
        · exact fun hq => none ((List.takeWhile_sublist _).subset hq)
        · exact fun hq => none ((List.dropWhile_sublist _).subset (mem_of_mem_words hw _ hq))
      · refine .run hc (fun d hd => ?_) ih
        rcases List.mem_cons.mp hd with rfl | hd
        · exact hblank
        · exact taken d hd
  | case3 c cs hnone ih => exact ih

/-- Words with a space in front of each. It is easier to follow by induction than a space between
two. -/
def spaced (ws : List (List Char)) : List Char :=
  ws.flatMap (' ' :: ·)

/-- Words with a space in front of each start with a blank, so a run in front of them ends
there. -/
theorem isBlank_head_spaced {ws : List (List Char)} :
    ∀ d, (spaced ws).head? = some d → isBlank d = true := by
  intro d hd
  cases ws with
  | nil => cases hd
  | cons w ws =>
    cases hd
    decide

/-- A quote in spaced words is a quote in one of the words. So a quote that is left open stays
open to the end of the line. -/
theorem not_mem_spaced {ws : List (List Char)} (h : ∀ w ∈ ws, '"' ∉ w) : '"' ∉ spaced ws := by
  simp only [spaced, List.mem_flatMap, List.mem_cons, not_exists, not_and, not_or]
  exact fun w hw => ⟨by decide, h w hw⟩

/-- Words in a right order are read again when they are written with a space in front of each. By
induction on the order, with one case for each kind of word. -/
theorem words_spaced {ws : List (List Char)} (h : Readable ws) : words (spaced ws) = ws := by
  -- Each word ends before the space of the next one, so the scan finds it and goes on there.
  have step : ∀ {c : Char} {cs : List Char} {ws : List (List Char)}, words (spaced ws) = ws →
      wordAt? c (cs ++ spaced ws) = some (c :: cs, spaced ws) →
      words (spaced ((c :: cs) :: ws)) = (c :: cs) :: ws := by
    intro c cs ws ih hword
    show words (' ' :: c :: (cs ++ spaced ws)) = _
    rw [words_cons_blank (by decide), words_cons_of_some hword, ih]
  induction h with
  | nil => exact words_nil
  | @literal body ws closed rest ih =>
    refine step ih ?_
    have happend : (body ++ ['"']) ++ spaced ws = body ++ '"' :: spaced ws := by simp
    show wordAt? '"' ((body ++ ['"']) ++ spaced ws) = some ('"' :: (body ++ ['"']), spaced ws)
    rw [happend]
    exact wordAt?_literal closed (spaced ws)
  | run start solid rest ih =>
    exact step ih (wordAt?_run (fun heq => absurd heq start) solid isBlank_head_spaced)
  | @unclosed cs ws solid last rest ih =>
    refine step ih (wordAt?_run (fun _ => ?_) (fun d hd => ?_) isBlank_head_spaced)
    · rw [List.mem_append, not_or]
      exact ⟨last cs List.mem_cons_self,
        not_mem_spaced fun w hw => last w (List.mem_cons_of_mem _ hw)⟩
    · rcases List.mem_cons.mp hd with rfl | hd
      · decide
      · exact solid d hd

/-- Words with a space between two of them, and one in front of the first, are the spaced
words. -/
theorem cons_intercalate_space (w : List Char) (ws : List (List Char)) :
    ' ' :: [' '].intercalate (w :: ws) = spaced (w :: ws) := by
  induction ws generalizing w with
  | nil => simp [spaced, List.intercalate]
  | cons v ws ih =>
    have hjoin : [' '].intercalate (w :: v :: ws) = w ++ ' ' :: [' '].intercalate (v :: ws) := by
      simp [List.intercalate]
    rw [hjoin, ih]
    simp [spaced]

/-- Words in a right order are read again when they are written with a space between two of them.
This is how the line of an instruction is written. -/
theorem words_intercalate_space {ws : List (List Char)} (h : Readable ws) :
    words ([' '].intercalate ws) = ws := by
  cases ws with
  | nil => exact words_nil
  | cons w ws =>
    rw [← words_cons_blank (c := ' ') (by decide), cons_intercalate_space, words_spaced h]

/-- The characters of words with a space between two of them are those of the words, and the
space. -/
theorem mem_intercalate_space {ws : List (List Char)} {d : Char}
    (h : d ∈ [' '].intercalate ws) : d = ' ' ∨ ∃ w ∈ ws, d ∈ w := by
  cases ws with
  | nil => cases h
  | cons w ws =>
    have mem : d ∈ spaced (w :: ws) :=
      cons_intercalate_space w ws ▸ List.mem_cons_of_mem _ h
    obtain ⟨v, hv, hd⟩ := List.mem_flatMap.mp mem
    rcases List.mem_cons.mp hd with rfl | hd
    · exact Or.inl rfl
    · exact Or.inr ⟨v, hv, hd⟩

/-- Of texts with a separator between them, all but the last have one behind them. This is the
form in which lines are looked at from their end. -/
theorem toList_intercalate_concat (separator : String) (texts : List String) (last : String) :
    (separator.intercalate (texts ++ [last])).toList =
      (texts.flatMap fun t => t.toList ++ separator.toList) ++ last.toList := by
  induction texts with
  | nil => rw [List.nil_append, String.intercalate_singleton]; rfl
  | cons t texts ih =>
    obtain ⟨second, more, hmore⟩ := List.exists_cons_of_ne_nil
      (List.append_ne_nil_of_right_ne_nil texts (List.cons_ne_nil last []))
    rw [hmore] at ih
    rw [List.cons_append, hmore, List.flatMap_cons, List.append_assoc, ← ih]
    simp [String.toList_intercalate, List.intercalate]

/-! ### Lines -/

/-- A line break is a blank. There are ten line breaks. -/
theorem isBlank_of_isLineBreak {c : Char} (h : isLineBreak c = true) : isBlank c = true := by
  simp only [isLineBreak, Bool.or_eq_true, beq_iff_eq] at h
  rcases h with ((((((((rfl | rfl) | rfl) | rfl) | rfl) | rfl) | rfl) | rfl) | rfl)
    | rfl <;> decide

/-- A solid character ends no line, because it is no blank. -/
theorem IsSolid.not_isLineBreak {c : Char} (h : IsSolid c) : isLineBreak c = false := by
  by_contra hbreak
  have blank := isBlank_of_isLineBreak (by simpa using hbreak)
  rw [h.1] at blank
  cases blank

/-- A line has no line break inside. By induction on the text; a character that is no line break
joins the first line of what is behind it. -/
theorem not_isLineBreak_of_mem_splitLines {cs line : List Char} (h : line ∈ splitLines cs) :
    ∀ c ∈ line, isLineBreak c = false := by
  fun_induction splitLines cs generalizing line with
  | case1 => cases h
  | case2 rest ih =>
    rcases List.mem_cons.mp h with rfl | h
    · exact fun c hc => nomatch hc
    · exact ih h
  | case3 c rest _ hbreak ih =>
    rcases List.mem_cons.mp h with rfl | h
    · exact fun c hc => nomatch hc
    · exact ih h
  | case4 c rest _ hbreak ih =>
    have first : isLineBreak c = false := by simpa using hbreak
    cases hlines : splitLines rest with
    | nil =>
      rw [hlines] at h
      rw [List.mem_singleton.mp h]
      simpa using first
    | cons head tail =>
      rw [hlines] at h ih
      rcases List.mem_cons.mp h with rfl | h
      · intro d hd
        rcases List.mem_cons.mp hd with rfl | hd
        · exact first
        · exact ih List.mem_cons_self d hd
      · exact ih (List.mem_cons_of_mem _ h)

/-- The first character of a text, if it is no carriage return, is looked at by itself. -/
theorem splitLines_cons {c : Char} (h : c ≠ '\r') (rest : List Char) :
    splitLines (c :: rest) =
      if isLineBreak c then [] :: splitLines rest else consLine c (splitLines rest) := by
  -- The definition as a whole: its separate equations take seconds to make.
  rw [splitLines.eq_def (c :: rest)]
  split
  · rename_i heq
    cases heq
  · rename_i heq
    cases heq
    exact absurd rfl h
  · rename_i heq
    cases heq
    rfl

/-- A line and a newline in front of a text add that line. By induction on the line. -/
theorem splitLines_append_newline {line : List Char} (h : ∀ c ∈ line, isLineBreak c = false)
    (rest : List Char) : splitLines (line ++ '\n' :: rest) = line :: splitLines rest := by
  induction line with
  | nil => exact splitLines_cons (by decide) rest
  | cons c line ih =>
    have hc := h c List.mem_cons_self
    have notReturn : c ≠ '\r' := by
      rintro rfl
      revert hc
      decide
    rw [List.cons_append, splitLines_cons notReturn, if_neg (by simp [hc]),
      ih fun d hd => h d (List.mem_cons_of_mem _ hd)]
    rfl

/-- Lines without line breaks, each with a newline behind it, are read as the same lines. -/
theorem splitLines_unlines {lines : List (List Char)}
    (h : ∀ line ∈ lines, ∀ c ∈ line, isLineBreak c = false) :
    splitLines (lines.flatMap (· ++ ['\n'])) = lines := by
  induction lines with
  | nil => rfl
  | cons line lines ih =>
    rw [List.flatMap_cons, List.append_assoc, List.singleton_append,
      splitLines_append_newline (h line List.mem_cons_self),
      ih fun other hother => h other (List.mem_cons_of_mem _ hother)]

end Tickscript
