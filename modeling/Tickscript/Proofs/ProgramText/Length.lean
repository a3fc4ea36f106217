import Mathlib
import Tickscript.Proofs.Generator.Grammar
import Tickscript.Proofs.ProgramText.Faithful
import Tickscript.Proofs.Source.Concatenation

/-!
# `Tickscript.Proofs.ProgramText.Length`: a program is no longer than its source

Every instruction but the last goes back to a token of its own, every token to a lexeme, and every
lexeme to a character: `length_code_le`. The addresses of a program are therefore no larger than
its source is long, and both its text and its listing can be made unless the source has more
characters than can be counted with the digits that a number may have
(`exists_texts_of_compileCode`).
-/

set_option autoImplicit false

namespace Tickscript

open Tickscript.Numeral Tickscript.Text

/-! ### From instructions to characters -/

/-- A measure that no element of a traversal makes larger is not made larger by the traversal: the
sums over both lists are compared element by element. Used once for the instructions of statements
and once for the tokens of fragments. -/
theorem sum_le_of_mapM {ε α β : Type} {f : α → Except ε β} {m : α → Nat} {n : β → Nat}
    (step : ∀ x y, f x = .ok y → n y ≤ m x) {xs : List α} {ys : List β} (h : xs.mapM f = .ok ys) :
    (ys.map n).sum ≤ (xs.map m).sum := by
  refine List.Forall₂.sum_le_sum ?_
  rw [List.forall₂_map_left_iff, List.forall₂_map_right_iff]
  exact ((forall₂_of_mapM h).imp step).flip

/-- Each form has at least as many tokens as its statement has instructions. A loop is the
closest: it takes five instructions and has at least five tokens. -/
theorem Form.size_le (f : Form) : f.statement.size ≤ f.tokens.length := by
  cases f with
  | ignored dest rest => exact Nat.zero_le _
  | assignment dest equals first pairs =>
    have length : (pairs.flatMap fun pair => [pair.1, pair.2]).length = 2 * pairs.length := by
      rw [List.length_flatMap]
      simp [Nat.mul_comm]
    -- An operator and its operand are two tokens and make one instruction.
    simp only [Form.statement, Form.tokens, Statement.size, assignmentTokens, namedPairs,
      List.length_cons, List.length_map, length]
    omega
  | conditional keyword left op right => exact Nat.le_add_left 2 2
  | print keyword value device => exact Nat.le_succ 2
  | closeConditional keyword => exact Nat.zero_le _
  | closeLoop keyword => exact Nat.le_refl 1
  | loop keyword header =>
    show 5 ≤ (keyword :: header.tokens).length
    simp only [LoopTokens.tokens, List.length_cons, List.length_append]
    omega

/-- So for tokens that were read as a statement, which are those of some form. -/
theorem Statement.size_le_of_ofTokens {tokens : List Token} {s : Statement}
    (h : ofTokens tokens = .ok s) : s.size ≤ tokens.length := by
  obtain ⟨form, -, rfl, rfl⟩ := exists_form_of_ofTokens h
  exact form.size_le

/-- Each lexeme takes at least one character, and characters between lexemes take none. -/
theorem Lexeme.length_scanFrom_le (line : Nat) (cs : List Char) :
    (scanFrom line cs).length ≤ cs.length := by
  fun_induction scanFrom line cs with
  | case1 => exact Nat.le_refl 0
  | case2 line c cs text rest found ih =>
    have shorter := length_of_lexemeAt? found
    simp only [List.length_cons]
    omega
  | case3 line c cs none ih =>
    rw [dite_eq_ite] at ih
    rw [List.length_cons]
    omega

/-- **A program has at most one instruction for each character of its source, and one that ends
it.** The count goes through statements, tokens, fragments and lexemes, and each step loses
nothing. -/
theorem length_code_le {v : Vocabulary} {m : Mnemonics} {source : String} {code : List Instr}
    (h : (compileCode v m source).result = .ok code) : code.length ≤ source.length + 1 := by
  obtain ⟨statements, hparse, hnone, rfl⟩ := generate_of_compileCode h
  obtain ⟨ss, g, hss, laid, -, hgenerate⟩ := laid_of_generate hnone
  -- The generator adds one instruction that comes from no statement.
  have counted : (Generator.generate m {} statements).1.code.length =
      (ss.map Statement.size).sum + 1 := by
    rw [hgenerate]
    simp [Generator.append, laid.length, address]
  have instructions : (ss.map Statement.size).sum ≤ (statements.map List.length).sum :=
    sum_le_of_mapM (fun _ _ => Statement.size_le_of_ofTokens) hss
  have tokens : (statements.map List.length).sum ≤
      ((Fragment.statements v source).map List.length).sum :=
    sum_le_of_mapM (fun _ _ h => Nat.le_of_eq (length_of_mapM h)) hparse
  have fragments :
      ((Fragment.statements v source).map List.length).sum ≤ (Lexeme.scan source).length := by
    have all := Fragment.length_gather v [] (Lexeme.scan source)
    rw [List.length_flatten, List.length_nil] at all
    rw [Fragment.statements]
    omega
  have lexemes : (Lexeme.scan source).length ≤ source.length := by
    rw [← String.length_toList]
    exact Lexeme.length_scanFrom_le 1 source.toList
  omega

/-! ### The two texts of a program -/

/-- A text with something in front is not empty, whatever is joined to it. -/
theorem join_ne_empty {text : String} {texts : List String} (h : text ≠ "") :
    String.join (text :: texts) ≠ "" := by
  intro empty
  have chars := congrArg String.toList empty
  simp at chars
  exact h chars.1

/-- A text that is made of the lines of a program, with something for the first of them, is not
empty. Program texts and listings are both made in this way. -/
theorem rendered_ne_empty {code : List Instr} {texts : List String → List String} {text : String}
    (h : (renderAll code).map (fun lines => String.join (texts lines)) = .ok text)
    (some : code ≠ [])
    (first : ∀ line rest, ∃ made others, texts (line :: rest) = made :: others ∧ made ≠ "") :
    text ≠ "" := by
  cases hlines : renderAll code with
  | error fault =>
    rw [hlines] at h
    cases h
  | ok lines =>
    -- There is a line for each instruction.
    have pos : 0 < lines.length := by
      rw [length_of_mapM hlines]
      exact List.length_pos_iff.mpr some
    obtain ⟨line, rest, rfl⟩ := List.exists_cons_of_ne_nil (List.length_pos_iff.mp pos)
    obtain ⟨made, others, htexts, filled⟩ := first line rest
    rw [hlines] at h
    cases h
    show String.join (texts (line :: rest)) ≠ ""
    rw [htexts]
    exact join_ne_empty filled

/-- The text of a program with at least one instruction is not empty. -/
theorem encode_ne_empty {code : List Instr} {program : String} (h : encode code = .ok program)
    (some : code ≠ []) : program ≠ "" :=
  rendered_ne_empty h some fun _ _ => ⟨_, _, rfl, by simp⟩

/-- The listing of a program with at least one instruction is not empty. -/
theorem listing_ne_empty {code : List Instr} {numbered : String} (h : listing code = .ok numbered)
    (some : code ≠ []) : numbered ≠ "" :=
  rendered_ne_empty h some fun _ _ => ⟨_, _, rfl, by simp⟩

/-- Compiled code is not empty, because it has the instruction that ends it. So the two texts of a
program are never empty, and a file that holds nothing is none of them. -/
theorem code_ne_nil {v : Vocabulary} {m : Mnemonics} {source : String} {code : List Instr}
    (h : (compileCode v m source).result = .ok code) : code ≠ [] := by
  obtain ⟨body, rfl, -⟩ := finished_of_compileCode h
  exact List.append_ne_nil_of_right_ne_nil _ (List.cons_ne_nil _ _)

/-- **Compiled code has a text and a listing.** Where a text ends depends on how many digits an
address may have, and no source is long enough for that. -/
theorem exists_texts_of_compileCode {source : String} {code : List Instr}
    (h : (compileCode .standard .standard source).result = .ok code)
    (short : source.length < Nat.pow 10 digitLimit) :
    ∃ program numbered, encode code = .ok program ∧ listing code = .ok numbered := by
  obtain ⟨program, hprogram⟩ :=
    (finished_of_compileCode h).exists_encode (Nat.le_trans (length_code_le h) short)
  cases hlines : renderAll code with
  | error fault =>
    rw [encode, hlines] at hprogram
    cases hprogram
  | ok lines => exact ⟨_, _, by rw [encode, hlines]; rfl, by rw [listing, hlines]; rfl⟩

end Tickscript
