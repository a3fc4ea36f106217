import Tickscript.Proofs.ProgramText.Words
import Tickscript.Text.Utf8

/-!
# `Tickscript.Proofs.ProgramText.Stored`: programs in files

A text that is read from a file has gone through two conversions: its bytes were decoded, and
`\r\n` and a lone `\r` were turned into `\n`. The first gives the text back
(`Utf8.decode_toUTF8`). The second does change the text, but not the program in it: every line
ending that it touches ends a line before and after, and a pair ends one line
(`splitLines_normalizeNewlines`). So a stored program is read as the program that the text stands
for, and a fault in it has the same line number (`decode_fromFile`).
-/

set_option autoImplicit false

namespace Tickscript

open Tickscript.Text

/-- A carriage return with something other than a newline behind it ends a line by itself. With a
newline behind it the two end one line together. -/
theorem splitLines_return {rest : List Char} (h : ∀ after, rest ≠ '\n' :: after) :
    splitLines ('\r' :: rest) = [] :: splitLines rest := by
  rw [splitLines.eq_def ('\r' :: rest)]
  split
  · rename_i heq
    cases heq
  · rename_i after heq
    cases heq
    exact absurd rfl (h after)
  · rename_i heq
    cases heq
    rfl

/-- **Newlines of a file.** Normalised newlines end the same lines. By induction on the text, with
the pair as a case of its own. -/
theorem splitLines_normalizeNewlines (cs : List Char) :
    splitLines (normalizeNewlines cs) = splitLines cs := by
  fun_induction normalizeNewlines cs with
  | case1 => rfl
  | case2 rest ih =>
    rw [splitLines_cons (by decide), if_pos (by decide), ih,
      splitLines.eq_def ('\r' :: '\n' :: rest)]
    rfl
  | case3 c rest notPair ih =>
    by_cases hreturn : c = '\r'
    · subst hreturn
      have alone : ∀ after, rest ≠ '\n' :: after := by
        intro after hrest
        exact notPair after rfl hrest
      rw [if_pos rfl, splitLines_cons (by decide), if_pos (by decide), ih,
        splitLines_return alone]
    · rw [if_neg hreturn, splitLines_cons hreturn, splitLines_cons hreturn, ih]

/-- A program that is read from a file is the program that the text stands for. The same holds of
faults, which carry the number of a line. -/
theorem decode_fromFile (text : String) : decode (fromFile text) = decode text := by
  rw [decode, decode, fromFile, String.toList_ofList, splitLines_normalizeNewlines]

/-- The bytes of a text are decoded to the text, so a file that was written is read as it was
written. -/
theorem Text.Utf8.decode_toUTF8 (text : String) : Utf8.decode text.toUTF8 = .ok text := by
  have same : String.fromUTF8? text.toUTF8 = some text := by
    rw [String.toUTF8_eq_toByteArray, String.fromUTF8?, dif_pos text.isValidUTF8]
    rfl
  rw [Utf8.decode, same]

/-! ### Quoted texts -/

/-- The digits of a number in hexadecimal are on one line, and so are the zeros in front of
them. -/
theorem not_isLineBreak_of_mem_hexPadded {width n : Nat} {c : Char} (h : c ∈ hexPadded width n) :
    isLineBreak c = false := by
  have digit : ∀ d < 16, isLineBreak d.digitChar = false := by decide
  have digits : ∀ n, ∀ c ∈ Nat.toDigits 16 n, isLineBreak c = false := by
    intro n
    -- By induction on the number, as its digits are found from the last one on.
    induction n using Nat.strongRecOn with
    | _ n ih =>
      intro c hc
      rw [Nat.toDigits_eq_if (by decide)] at hc
      split at hc
      · rename_i hn
        rw [List.mem_singleton.mp hc]
        exact digit n hn
      · rcases List.mem_append.mp hc with hc | hc
        · exact ih (n / 16) (by omega) c hc
        · rw [List.mem_singleton.mp hc]
          exact digit (n % 16) (by omega)
  rcases List.mem_append.mp h with h | h
  · rw [List.eq_of_mem_replicate h]
    decide
  · exact digits n c h

/-- So is an escape: a backslash, a letter and such digits. -/
theorem not_isLineBreak_of_mem_escape {letter c : Char} {digits : List Char}
    (hletter : isLineBreak letter = false) (hdigits : ∀ d ∈ digits, isLineBreak d = false)
    (h : c ∈ '\\' :: letter :: digits) : isLineBreak c = false := by
  rcases List.mem_cons.mp h with rfl | h
  · decide
  · rcases List.mem_cons.mp h with rfl | h
    · exact hletter
    · exact hdigits c h

/-- A printable character is no line break. There are ten line breaks, and each of them is looked
up in the table of what is printable. -/
theorem not_isLineBreak_of_isPrintable {c : Char} (h : isPrintable c = true) :
    isLineBreak c = false := by
  by_contra hbreak
  rw [Bool.not_eq_false] at hbreak
  simp only [isLineBreak, Bool.or_eq_true, beq_iff_eq] at hbreak
  revert h
  rcases hbreak with ((((((((rfl | rfl) | rfl) | rfl) | rfl) | rfl) | rfl) | rfl) | rfl) | rfl <;>
    decide +kernel

/-- A character inside quotes is shown on one line, whatever it is. -/
theorem not_isLineBreak_of_mem_quoteChar {mark c d : Char} (hmark : isLineBreak mark = false)
    (h : d ∈ quoteChar mark c) : isLineBreak d = false := by
  have digits : ∀ width, ∀ d ∈ hexPadded width c.toNat, isLineBreak d = false := by
    intro width d hd
    exact not_isLineBreak_of_mem_hexPadded hd
  unfold quoteChar at h
  split at h
  · -- Only the mark and the backslash stand behind a backslash as they are.
    rename_i hc
    refine not_isLineBreak_of_mem_escape ?_ (List.forall_mem_nil _) h
    simp only [Bool.or_eq_true, decide_eq_true_eq] at hc
    rcases hc with rfl | rfl
    · exact hmark
    · decide
  split at h
  · exact not_isLineBreak_of_mem_escape (by decide) (List.forall_mem_nil _) h
  split at h
  · exact not_isLineBreak_of_mem_escape (by decide) (List.forall_mem_nil _) h
  split at h
  · exact not_isLineBreak_of_mem_escape (by decide) (List.forall_mem_nil _) h
  split at h
  · rename_i printable
    rw [List.mem_singleton.mp h]
    exact not_isLineBreak_of_isPrintable printable
  split at h
  · exact not_isLineBreak_of_mem_escape (by decide) (digits 2) h
  split at h
  · exact not_isLineBreak_of_mem_escape (by decide) (digits 4) h
  · exact not_isLineBreak_of_mem_escape (by decide) (digits 8) h

/-- A quoted text is on one line. Messages quote texts of the user, and a message must not take
more than a line for that. -/
theorem not_isLineBreak_of_mem_quote {text : String} {c : Char} (h : c ∈ (quote text).toList) :
    isLineBreak c = false := by
  have hmark : isLineBreak (quoteMark text.toList) = false := by
    unfold quoteMark
    split <;> decide
  simp only [quote, String.toList_ofList, List.cons_append, List.mem_cons, List.mem_append,
    List.mem_flatMap, List.not_mem_nil, or_false] at h
  rcases h with rfl | ⟨d, -, hd⟩ | rfl
  · exact hmark
  · exact not_isLineBreak_of_mem_quoteChar hmark hd
  · exact hmark

end Tickscript
