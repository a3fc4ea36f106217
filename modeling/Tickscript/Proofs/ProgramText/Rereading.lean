import Mathlib
import Tickscript.Proofs.Except
import Tickscript.Proofs.Numeral.ReadBack
import Tickscript.Proofs.ProgramText.Words

/-!
# `Tickscript.Proofs.ProgramText.Rereading`: programs that are read back from their text

Which programs are read back from the text that is written for them? Those whose instructions are
legible and stand on one line each. An instruction is legible (`Instr.Legible`) if its operation
is known, it has a target exactly if it is a jump, and its arguments are words that are found
again with spaces between them.

Both directions hold. A program of such instructions is written and read back
(`exists_text_of_legible`), and every program that was read from a text is of this kind
(`legible_of_decode`). So writing a program that was read, and reading it once more, changes
nothing, however the first text was spaced and spelled (`rereads_of_decode`).
-/

set_option autoImplicit false

namespace Tickscript

open Tickscript.Numeral Tickscript.Text

/-! ### Operation words -/

/-- A known operation is found by its word, since no two of them have the same one. -/
theorem Opcode.ofWord?_word {opcode : Opcode} (h : opcode ∈ known) :
    ofWord? opcode.word = some opcode := by
  revert opcode
  decide

/-- The word of a known operation is plain, so it stands in front of any arguments. -/
theorem Opcode.isPlainWord_word {opcode : Opcode} (h : opcode ∈ known) :
    IsPlainWord opcode.word.toList := by
  revert opcode
  decide

/-- The text of an integer is a plain word: a minus and digits. This is the target of a jump. -/
theorem isPlainWord_toString (n : Int) : IsPlainWord (toString n).toList := by
  refine ⟨?_, fun d hd => of_mem_toString (P := IsSolid) (by decide) (by decide) hd⟩
  rw [toList_toString]
  split
  · simp
  · exact Nat.toDigits_ne_nil

/-! ### Legible instructions -/

/-- An instruction that is found again in its text, if the text is one line.

- `known`: the first word is that of an operation;
- `args`: the arguments are found with spaces between them;
- `plain`: an instruction other than a jump has no target;
- `jump`: a jump has a condition, and a target that can be written. -/
structure Instr.Legible (i : Instr) : Prop where
  known : i.opcode ∈ Opcode.known
  args : Readable (i.args.map String.toList)
  plain : i.opcode ≠ .jump → i.target = none
  jump : i.opcode = .jump →
    i.args ≠ [] ∧ ∃ n, i.target = some n ∧ n.natAbs < Nat.pow 10 digitLimit

/-- No argument of the instruction holds a line break. Only literals could, as blanks end other
words. -/
def Instr.OneLine (i : Instr) : Prop :=
  ∀ arg ∈ i.args, ∀ c ∈ arg.toList, isLineBreak c = false

/-- The words of a legible instruction: that of its operation, at most one for the target, and the
arguments. They are its text, and they are read as the instruction. -/
theorem Instr.Legible.exists_words {i : Instr} (h : i.Legible) :
    ∃ target : List String, (∀ w ∈ target, IsPlainWord w.toList) ∧
      i.render = .ok (" ".intercalate (i.opcode.word :: (target ++ i.args))) ∧
      ∀ number, Instr.ofWords number i.opcode.word (target ++ i.args) = .ok i := by
  obtain ⟨opcode, args, target⟩ := i
  have hword := Opcode.ofWord?_word h.known
  by_cases hjump : opcode = .jump
  · subst hjump
    obtain ⟨hargs, n, rfl, hn⟩ := h.jump rfl
    obtain ⟨condition, others, rfl⟩ := List.exists_cons_of_ne_nil hargs
    refine ⟨[toString n], by simpa using isPlainWord_toString n, ?_, fun number => ?_⟩
    · simp only [render, if_true, writeInteger_of_lt hn]
      rfl
    · -- The target is the word behind that of the operation.
      simp only [List.singleton_append, ofWords, hword, readInteger_toString hn]
      rfl
  · obtain rfl := h.plain hjump
    refine ⟨[], by simp, by simp only [render, if_neg hjump]; rfl, fun number => ?_⟩
    unfold ofWords
    rw [hword]
    cases opcode <;> first | exact absurd rfl hjump | rfl

/-- A legible instruction on one line is read back from its text. Its words are read again because
of their order, and its line is one because no word holds a line break. -/
theorem Instr.Legible.exists_line {i : Instr} (h : i.Legible) (oneLine : i.OneLine) :
    ∃ line, i.render = .ok line ∧ (∀ c ∈ line.toList, isLineBreak c = false) ∧
      ∀ number, Instr.ofLine number line.toList = .ok (some i) := by
  obtain ⟨target, plain, hrender, hread⟩ := h.exists_words
  have first := Opcode.isPlainWord_word h.known
  have chars : (" ".intercalate (i.opcode.word :: (target ++ i.args))).toList =
      [' '].intercalate ((i.opcode.word :: (target ++ i.args)).map String.toList) := by
    rw [String.toList_intercalate]
    rfl
  have readable : Readable ((i.opcode.word :: (target ++ i.args)).map String.toList) := by
    refine .plain first ?_
    rw [List.map_append]
    -- The target is at most one word, but the induction does not have to know.
    clear hrender hread chars
    induction target with
    | nil => exact h.args
    | cons w target ih =>
      exact .plain (plain w List.mem_cons_self)
        (ih fun v hv => plain v (List.mem_cons_of_mem _ hv))
  refine ⟨_, hrender, ?_, fun number => ?_⟩
  · intro c hc
    rw [chars] at hc
    rcases mem_intercalate_space hc with rfl | ⟨w, hw, hc⟩
    · decide
    · obtain ⟨text, htext, rfl⟩ := List.mem_map.mp hw
      rcases List.mem_cons.mp htext with rfl | htext
      · exact (first.2 c hc).not_isLineBreak
      · rcases List.mem_append.mp htext with htext | htext
        · exact ((plain text htext).2 c hc).not_isLineBreak
        · exact oneLine text htext c hc
  · have same : ((i.opcode.word :: (target ++ i.args)).map String.toList).map String.ofList =
        i.opcode.word :: (target ++ i.args) := by
      simp [Function.comp_def]
    unfold ofLine
    rw [chars, words_intercalate_space readable, same]
    simp only [hread]
    rfl

/-! ### Instructions that were read -/

/-- The instruction that words are read as is legible, and its arguments are among the words. The
words have to be in an order in which a line can have them. -/
theorem Instr.legible_of_ofWords {number : Nat} {first : String} {rest : List String} {i : Instr}
    (h : ofWords number first rest = .ok i) (readable : Readable (rest.map String.toList)) :
    i.Legible ∧ ∀ arg ∈ i.args, arg ∈ rest := by
  unfold ofWords at h
  split at h
  · cases h
  · -- A jump: the target was read, so it can be written.
    split at h
    · rename_i target condition args
      split at h
      · rename_i n hn
        cases h
        refine
          ⟨⟨(by decide : Opcode.jump ∈ Opcode.known), readable.tail, fun hne => absurd rfl hne,
            fun _ => ?_⟩, fun arg harg => List.mem_cons_of_mem _ harg⟩
        exact ⟨List.cons_ne_nil _ _, n, rfl, natAbs_lt_of_readInteger hn⟩
      · cases h
    · cases h
  · rename_i opcode hne hword
    cases h
    refine ⟨⟨List.mem_of_find?_eq_some hword, readable, fun _ => rfl, fun hjump => ?_⟩,
      fun arg harg => harg⟩
    exact absurd hjump hne

/-- The instruction of a line is legible, and its arguments have no other characters than the
line. The words of a line are in such an order always. -/
theorem Instr.legible_of_ofLine {number : Nat} {line : List Char} {i : Instr}
    (h : ofLine number line = .ok (some i)) :
    i.Legible ∧ ∀ arg ∈ i.args, ∀ c ∈ arg.toList, c ∈ line := by
  unfold ofLine at h
  split at h
  · cases h
  · rename_i first rest hwords
    cases hread : ofWords number first rest with
    | error fault =>
      rw [hread] at h
      cases h
    | ok read =>
      rw [hread] at h
      cases h
      have same : words line = (first :: rest).map String.toList := by
        rw [← hwords]
        simp [Function.comp_def]
      have readable := readable_words line
      rw [same] at readable
      obtain ⟨legible, inside⟩ := legible_of_ofWords hread readable.tail
      refine ⟨legible, fun arg harg c hc => ?_⟩
      -- Words have only characters of their line, so the arguments have.
      have mem : arg.toList ∈ words line := by
        rw [same]
        exact List.mem_map_of_mem (List.mem_cons_of_mem _ (inside arg harg))
      exact mem_of_mem_words mem c hc

/-- Every instruction of a program comes from one of its lines. By induction on the lines; a line
without words adds no instruction. -/
theorem exists_line_of_mem_decodeLines {number : Nat} {lines : List (List Char)}
    {code : List Instr} (h : decodeLines number lines = .ok code) {i : Instr} (hi : i ∈ code) :
    ∃ line ∈ lines, ∃ k, Instr.ofLine k line = .ok (some i) := by
  induction lines generalizing number code with
  | nil =>
    cases h
    cases hi
  | cons line lines ih =>
    obtain ⟨first, hfirst, h⟩ := bind_eq_ok h
    obtain ⟨others, hothers, h⟩ := bind_eq_ok h
    cases h
    rcases List.mem_append.mp hi with hi | hi
    · rw [Option.mem_toList] at hi
      exact ⟨line, List.mem_cons_self, number, by rw [hfirst, hi]⟩
    · obtain ⟨found, hfound, k, hk⟩ := ih hothers hi
      exact ⟨found, List.mem_cons_of_mem _ hfound, k, hk⟩

/-- The instructions of a program that was read from a text are legible and stand on one line.
Nothing is assumed about the text. -/
theorem legible_of_decode {text : String} {code : List Instr} (h : decode text = .ok code) :
    ∀ i ∈ code, i.Legible ∧ i.OneLine := by
  intro i hi
  obtain ⟨line, hline, k, hk⟩ := exists_line_of_mem_decodeLines h hi
  obtain ⟨legible, inside⟩ := Instr.legible_of_ofLine hk
  exact ⟨legible, fun arg harg c hc =>
    not_isLineBreak_of_mem_splitLines hline c (inside arg harg c hc)⟩

/-! ### Programs that are written and read -/

/-- The lines of a program of legible instructions on one line each are read as the program. The
numbers of the lines are only for the faults, so they may start anywhere. -/
theorem exists_lines_of_legible {code : List Instr} (h : ∀ i ∈ code, i.Legible ∧ i.OneLine) :
    ∃ lines, renderAll code = .ok lines ∧
      (∀ line ∈ lines, ∀ c ∈ line.toList, isLineBreak c = false) ∧
      ∀ number, decodeLines number (lines.map String.toList) = .ok code := by
  induction code with
  | nil => exact ⟨[], rfl, by simp, fun number => rfl⟩
  | cons i code ih =>
    obtain ⟨line, hrender, hline, hread⟩ :=
      (h i List.mem_cons_self).1.exists_line (h i List.mem_cons_self).2
    obtain ⟨lines, hlines, hbreaks, hdecode⟩ := ih fun j hj => h j (List.mem_cons_of_mem _ hj)
    refine ⟨line :: lines, ?_, ?_, fun number => ?_⟩
    · rw [renderAll] at hlines ⊢
      rw [List.mapM_cons, hrender, hlines]
      rfl
    · intro other hother
      rcases List.mem_cons.mp hother with rfl | hother
      · exact hline
      · exact hbreaks other hother
    · rw [List.map_cons, decodeLines, hread, hdecode]
      rfl

/-- A program of legible instructions on one line each is read back from its text. The text is the
lines with a newline behind each, and these are its lines again. -/
theorem exists_text_of_legible {code : List Instr} (h : ∀ i ∈ code, i.Legible ∧ i.OneLine) :
    ∃ text, encode code = .ok text ∧ decode text = .ok code := by
  obtain ⟨lines, hlines, hbreaks, hdecode⟩ := exists_lines_of_legible h
  refine ⟨String.join (lines.map (· ++ "\n")), by rw [encode, hlines]; rfl, ?_⟩
  have chars : (String.join (lines.map (· ++ "\n"))).toList =
      (lines.map String.toList).flatMap (· ++ ['\n']) := by
    rw [String.toList_join, List.flatMap_map, List.flatMap_map]
    simp
  have broken : ∀ line ∈ lines.map String.toList, ∀ c ∈ line, isLineBreak c = false := by
    intro line hline
    obtain ⟨text, htext, rfl⟩ := List.mem_map.mp hline
    exact hbreaks text htext
  rw [decode, chars, splitLines_unlines broken, hdecode]

/-- **Writing a program that was read keeps it.** A program that was read from some text has a
text of its own, and reading that gives the same program: no instruction and no argument is lost,
split, joined or changed, whatever blanks, quotes and spellings of numbers the first text had. -/
theorem rereads_of_decode {text : String} {code : List Instr} (h : decode text = .ok code) :
    ∃ written, encode code = .ok written ∧ decode written = .ok code :=
  exists_text_of_legible (legible_of_decode h)

/-- Quotes inside a word, glued to a literal and left open, a line with only a wide space, and a
target with a sign, an underscore and a digit of another script. -/
theorem rereads_of_stray_quotes :
    let text := "print a\"b c\" \"d  e\"f \"g\n\u2003\njump  +0_٧\talways \"x\r\n"
    let code : List Instr :=
      [.plain .print ["a\"b", "c\"", "\"d  e\"", "f", "\"g"], .jumpTo 7 ["always", "\"x"]]
    decode text = .ok code ∧ ∃ written, encode code = .ok written ∧
      decode written = .ok code := by
  intro text code
  have lines : splitLines text.toList =
      ["print a\"b c\" \"d  e\"f \"g".toList, ['\u2003'], "jump  +0_٧\talways \"x".toList] := by
    decide
  have h : decode text = .ok code := by
    refine (congrArg (decodeLines 1) lines).trans ?_
    set_option maxRecDepth 2000 in cbv
  exact ⟨h, rereads_of_decode h⟩

end Tickscript
