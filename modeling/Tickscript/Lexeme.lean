import Tickscript.Text.Character

/-!
# `Tickscript.Lexeme`: the pieces of a source text

A source text is scanned from left to right for four kinds of lexemes: literals between double
quotes, words, runs of operator characters and runs of digits. A word and a number take one
boundary character with them, an operator run one space. Everything else is dropped.

`lexemeAt?_append` says that a lexeme and the rest after it are the text again, which is also why
the scan ends.
-/

set_option autoImplicit false

namespace Tickscript

open Tickscript.Text

/-- A piece of a source text as it stands there, with the line where it starts. -/
structure Lexeme where
  text : List Char
  line : Nat
deriving DecidableEq, Repr

/-- The characters that operators are made of. -/
def isOperatorChar (c : Char) : Bool :=
  c == '=' || c == '<' || c == '>' || c == '.' || c == '+' || c == '-' || c == '/' ||
    c == '*' || c == '^'

/-- The characters that bound a word or a number and are taken with it. -/
def isBoundary (c : Char) : Bool :=
  c == ';' || c == ':' || c == ' ' || c == '(' || c == ')'

/-- Splits a text at its first double quote, which is dropped; `none` if there is no quote. -/
def cutAtQuote? : List Char → Option (List Char × List Char)
  | [] => none
  | c :: rest =>
    if c = '"' then some ([], rest)
    else (cutAtQuote? rest).map fun cut => (c :: cut.1, cut.2)

/-- Takes the longest run of the class `inRun` and, if one follows, a character of the class
`ends` from a text. Gives what was taken and the rest. -/
def takeRun (inRun ends : Char → Bool) (cs : List Char) : List Char × List Char :=
  match cs.dropWhile inRun with
  | [] => (cs.takeWhile inRun, [])
  | e :: rest =>
    if ends e then (cs.takeWhile inRun ++ [e], rest) else (cs.takeWhile inRun, e :: rest)

/-- The lexeme that starts with the character `c` before `cs`, and the rest after it. A quote that
is never closed starts no lexeme. -/
def lexemeAt? (c : Char) (cs : List Char) : Option (List Char × List Char) :=
  if c = '"' then (cutAtQuote? cs).map fun cut => ('"' :: cut.1 ++ ['"'], cut.2)
  else if isLetter c then
    let run := takeRun isWordChar isBoundary cs
    some (c :: run.1, run.2)
  else if isOperatorChar c then
    let run := takeRun isOperatorChar (· == ' ') cs
    some (c :: run.1, run.2)
  else if isDigit c then
    let run := takeRun isDigit isBoundary cs
    some (c :: run.1, run.2)
  else none

/-- A cut loses the quote only. -/
theorem cutAtQuote?_append {cs body rest : List Char} (h : cutAtQuote? cs = some (body, rest)) :
    body ++ '"' :: rest = cs := by
  induction cs generalizing body with
  | nil => simp [cutAtQuote?] at h
  | cons c cs ih =>
    by_cases hc : c = '"'
    · simp [cutAtQuote?, hc] at h
      simp [← h.1, ← h.2, hc]
    · simp only [cutAtQuote?, hc, if_false, Option.map_eq_some_iff, Prod.mk.injEq] at h
      obtain ⟨cut, hcut, rfl, rfl⟩ := h
      simp [ih hcut]

/-- A text is not cut exactly if it has no quote. -/
theorem cutAtQuote?_eq_none_iff {cs : List Char} : cutAtQuote? cs = none ↔ '"' ∉ cs := by
  induction cs with
  | nil => simp [cutAtQuote?]
  | cons c cs ih =>
    by_cases hc : c = '"'
    · simp [cutAtQuote?, hc]
    · simp [cutAtQuote?, hc, Ne.symm hc, ih]

/-- A text with a quote is cut at the first one. -/
theorem cutAtQuote?_of_not_mem {body : List Char} (h : '"' ∉ body) (rest : List Char) :
    cutAtQuote? (body ++ '"' :: rest) = some (body, rest) := by
  induction body with
  | nil => simp [cutAtQuote?]
  | cons c body ih =>
    simp only [List.mem_cons, not_or] at h
    simp [cutAtQuote?, Ne.symm h.1, ih h.2]

/-- There is no quote before the cut. -/
theorem not_mem_of_cutAtQuote? {cs body rest : List Char}
    (h : cutAtQuote? cs = some (body, rest)) :
    '"' ∉ body := by
  induction cs generalizing body with
  | nil => simp [cutAtQuote?] at h
  | cons c cs ih =>
    by_cases hc : c = '"'
    · simp only [cutAtQuote?, hc, if_true, Option.some.injEq, Prod.mk.injEq] at h
      obtain ⟨rfl, -⟩ := h
      exact List.not_mem_nil
    · simp only [cutAtQuote?, hc, if_false, Option.map_eq_some_iff, Prod.mk.injEq] at h
      obtain ⟨cut, hcut, rfl, rfl⟩ := h
      simp [Ne.symm hc, ih hcut]

/-- A run and the rest after it are the text. -/
theorem takeRun_append (inRun ends : Char → Bool) (cs : List Char) :
    (takeRun inRun ends cs).1 ++ (takeRun inRun ends cs).2 = cs := by
  have split := List.takeWhile_append_dropWhile (p := inRun) (l := cs)
  unfold takeRun
  cases h : cs.dropWhile inRun with
  | nil => simpa [h] using split
  | cons e rest =>
    rw [h] at split
    by_cases he : ends e <;> simp [he, split]

/-- A lexeme and the rest after it are the text: nothing is lost inside a lexeme. -/
theorem lexemeAt?_append {c : Char} {cs text rest : List Char}
    (h : lexemeAt? c cs = some (text, rest)) : text ++ rest = c :: cs := by
  unfold lexemeAt? at h
  split at h
  · rename_i hc
    simp only [Option.map_eq_some_iff, Prod.mk.injEq] at h
    obtain ⟨cut, hcut, rfl, rfl⟩ := h
    simp [cutAtQuote?_append hcut, hc]
  · split at h
    · simp only [Option.some.injEq, Prod.mk.injEq] at h
      simp [← h.1, ← h.2, takeRun_append]
    · split at h
      · simp only [Option.some.injEq, Prod.mk.injEq] at h
        simp [← h.1, ← h.2, takeRun_append]
      · split at h
        · simp only [Option.some.injEq, Prod.mk.injEq] at h
          simp [← h.1, ← h.2, takeRun_append]
        · simp at h

/-- A lexeme is not empty. -/
theorem lexemeAt?_ne_nil {c : Char} {cs text rest : List Char}
    (h : lexemeAt? c cs = some (text, rest)) : text ≠ [] := by
  unfold lexemeAt? at h
  split at h
  · simp only [Option.map_eq_some_iff, Prod.mk.injEq] at h
    obtain ⟨cut, -, rfl, -⟩ := h
    simp
  · split at h
    · simp only [Option.some.injEq, Prod.mk.injEq] at h
      simp [← h.1]
    · split at h
      · simp only [Option.some.injEq, Prod.mk.injEq] at h
        simp [← h.1]
      · split at h
        · simp only [Option.some.injEq, Prod.mk.injEq] at h
          simp [← h.1]
        · simp at h

/-- The rest after a lexeme is no longer than the text after its first character. -/
theorem length_of_lexemeAt? {c : Char} {cs text rest : List Char}
    (h : lexemeAt? c cs = some (text, rest)) : rest.length ≤ cs.length := by
  have sum := congrArg List.length (lexemeAt?_append h)
  have pos := List.length_pos_iff.mpr (lexemeAt?_ne_nil h)
  simp only [List.length_append, List.length_cons] at sum
  omega

/-- The lexemes of a text that starts on the given line. -/
def Lexeme.scanFrom (line : Nat) : List Char → List Lexeme
  | [] => []
  | c :: cs =>
    match _h : lexemeAt? c cs with
    | some (text, rest) => ⟨text, line⟩ :: scanFrom (line + text.count '\n') rest
    | none => scanFrom (if c = '\n' then line + 1 else line) cs
termination_by cs => cs.length
decreasing_by
  · have := length_of_lexemeAt? _h
    simp only [List.length_cons]
    omega
  · simp

/-- The lexemes of a source text. Lines are counted from one. -/
def Lexeme.scan (source : String) : List Lexeme :=
  scanFrom 1 source.toList

end Tickscript
