import Tickscript.Proofs.ProgramText.Faithful
import Tickscript.Proofs.Text.Newlines

/-!
# `Tickscript.Proofs.ProgramText.Newlines`: compiled programs in files

A source that was read from a file has no carriage returns. Compiling moves characters of the
source into the code and adds words of its own, so there are none in the program text and in the
listing either (`noReturn_of_compileCode`). Both are read from a file as they were written.
-/

set_option autoImplicit false

namespace Tickscript

open Tickscript.Text

/-- A lexeme is made of characters of the text. By induction on the scan, which skips characters
and adds none. -/
theorem mem_of_mem_scanFrom {line : Nat} {cs : List Char} {lexeme : Lexeme}
    (h : lexeme ∈ Lexeme.scanFrom line cs) : ∀ c ∈ lexeme.text, c ∈ cs := by
  fun_induction Lexeme.scanFrom line cs with
  | case1 => cases h
  | case2 line c cs text rest htext ih =>
    have whole := lexemeAt?_append htext
    intro d hd
    rw [← whole]
    rcases List.mem_cons.mp h with rfl | h
    · exact List.mem_append_left _ hd
    · exact List.mem_append_right _ (ih h d hd)
  | case3 line c cs hnone ih => exact fun d hd => List.mem_cons_of_mem _ (ih h d hd)

/-- The arguments of the code of a source without carriage returns have none. They come from the
source, apart from the generator's own words. -/
theorem noReturn_of_mem_args {source : String} (hsource : NoReturn source) {code : List Instr}
    (h : (compileCode .standard .standard source).result = .ok code) {i : Instr} (hi : i ∈ code)
    {arg : String} (harg : arg ∈ i.args) : NoReturn arg := by
  rcases token_or_ownWord_of_compileCode h hi harg with
    ⟨statements, hparse, tokens, htokens, t, ht, rfl⟩ | hown
  · refine of_parse (P := fun text => '\r' ∉ text) ?_ ?_ hparse htokens ht
    · exact fun text htext _ mem => htext ((List.dropLast_sublist text).subset mem)
    · exact fun l hl mem => hsource (mem_of_mem_scanFrom hl _ (mem_of_mem_trim mem))
  · have own : ∀ word ∈ Mnemonics.standard.ownWords, NoReturn word := by decide
    exact own arg hown

/-- So has the text of each instruction, which is made of the word of the operation, the target
and the arguments. -/
theorem noReturn_render {source : String} (hsource : NoReturn source) {code : List Instr}
    (h : (compileCode .standard .standard source).result = .ok code) {i : Instr} (hi : i ∈ code)
    {text : String} (hrender : i.render = .ok text) : NoReturn text := by
  have args : ∀ arg ∈ i.args, NoReturn arg := fun arg => noReturn_of_mem_args hsource h hi
  -- An unknown operation could have any word, but compiled code has none.
  have word : NoReturn i.opcode.word := by
    have known : ∀ opcode ∈ Opcode.known, NoReturn opcode.word := by decide
    exact known _ ((finished_of_compileCode h).parts hi).1
  unfold Instr.render at hrender
  split at hrender
  · split at hrender
    · cases hrender
    · split at hrender
      · rename_i target _ shown hshown
        cases hrender
        exact noReturn_intercalate (by decide) (List.forall_mem_cons.mpr
          ⟨word, List.forall_mem_cons.mpr ⟨noReturn_writeInteger hshown, args⟩⟩)
      · cases hrender
  · cases hrender
    exact noReturn_intercalate (by decide) (List.forall_mem_cons.mpr ⟨word, args⟩)

/-- Program text and listing of a source without carriage returns have none. Both are made of the
texts of the instructions; the listing adds numbers and spaces. -/
theorem noReturn_of_compileCode {source : String} (hsource : NoReturn source) {code : List Instr}
    (h : (compileCode .standard .standard source).result = .ok code) :
    (∀ program, encode code = .ok program → NoReturn program) ∧
      ∀ list, listing code = .ok list → NoReturn list := by
  have newline : NoReturn "\n" := by decide
  have rendered : ∀ lines, renderAll code = .ok lines → ∀ line ∈ lines, NoReturn line := by
    intro lines hlines line hline
    obtain ⟨i, hi, hrender⟩ := exists_of_mem_mapM hlines hline
    exact noReturn_render hsource h hi hrender
  constructor
  · intro program hprogram
    cases hlines : renderAll code with
    | error fault =>
      rw [encode, hlines] at hprogram
      cases hprogram
    | ok lines =>
      rw [encode, hlines] at hprogram
      cases hprogram
      refine noReturn_join fun line hline => ?_
      obtain ⟨text, htext, rfl⟩ := List.mem_map.mp hline
      exact (rendered lines hlines text htext).append newline
  · intro list hlist
    cases hlines : renderAll code with
    | error fault =>
      rw [listing, hlines] at hlist
      cases hlist
    | ok lines =>
      rw [listing, hlines] at hlist
      cases hlist
      refine noReturn_join fun line hline => ?_
      obtain ⟨⟨text, index⟩, hentry, rfl⟩ := List.mem_map.mp hline
      have htext : text ∈ lines := List.fst_mem_of_mem_zipIdx hentry
      have number :
          NoReturn (padRight (toString (lines.length - 1)).length (toString index)) := by
        have spaces : ∀ n, NoReturn (String.ofList (List.replicate n ' ')) := by
          intro n
          rw [NoReturn, String.toList_ofList]
          intro mem
          cases List.eq_of_mem_replicate mem
        exact (noReturn_toString (index : Int)).append (spaces _)
      exact ((number.append (by decide)).append (rendered lines hlines text htext)).append newline

end Tickscript
