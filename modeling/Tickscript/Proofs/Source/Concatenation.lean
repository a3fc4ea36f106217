import Tickscript.Proofs.Source.Segments

/-!
# `Tickscript.Proofs.Source.Concatenation`: separate compilation

Two sources can be compiled apart and the results put together (`compileCode_append_newline`). Two
things could go wrong where the first source ends, and the hypotheses rule them out. A quote that
is never closed would swallow the second source, so the first one has an even number of quotes.
And a statement that is not closed would go on in the second source, so every lexeme of the first
one belongs to a statement.

With a line break between them no lexeme reaches across: the line break belongs to none of the
classes of characters, so a run in the first source ends before it (`scanFrom_append_newline`).
Behind it the scan starts as it would in the second source alone, only that its lines are counted
on. The code of the second program is moved behind that of the first, as `Relocation` says.
-/

set_option autoImplicit false

namespace Tickscript

open Tickscript.Text

/-! ### The scan across a line break -/

/-- A run ends before a line break, if its class does not have it. What is behind the line break
is not looked at, even where the run goes up to the end of the first text. -/
theorem takeRun_append_newline {inRun ends : Char → Bool} (outside : inRun '\n' = false)
    (noEnd : ends '\n' = false) (cs rest : List Char) :
    takeRun inRun ends (cs ++ '\n' :: rest) =
      ((takeRun inRun ends cs).1, (takeRun inRun ends cs).2 ++ '\n' :: rest) := by
  have stop : ¬inRun '\n' = true := by rw [outside]; decide
  -- Either the run takes all of the first text, or it has ended before.
  cases hdrop : cs.dropWhile inRun with
  | nil =>
    have inside := List.dropWhile_eq_nil_iff.mp hdrop
    have whole : cs.takeWhile inRun = cs := List.takeWhile_eq_self_iff.mpr inside
    simp only [takeRun, hdrop, whole, List.dropWhile_append_of_pos inside,
      List.takeWhile_append_of_pos inside, List.dropWhile_cons_of_neg stop,
      List.takeWhile_cons_of_neg stop, noEnd, Bool.false_eq_true, if_false, List.append_nil,
      List.nil_append]
  | cons e after =>
    have dropped : (cs ++ '\n' :: rest).dropWhile inRun = e :: after ++ '\n' :: rest := by
      rw [List.dropWhile_append, hdrop]
      rfl
    have taken : (cs ++ '\n' :: rest).takeWhile inRun = cs.takeWhile inRun := by
      have split := List.takeWhile_append_dropWhile (p := inRun) (l := cs)
      have long := List.takeWhile_append_dropWhile (p := inRun) (l := cs ++ '\n' :: rest)
      rw [hdrop] at split
      rw [dropped] at long
      have same : (cs ++ '\n' :: rest).takeWhile inRun ++ (e :: after ++ '\n' :: rest) =
          cs.takeWhile inRun ++ (e :: after ++ '\n' :: rest) := by
        rw [long, ← List.append_assoc, split]
      exact List.append_cancel_right same
    by_cases he : ends e = true
    · simp [takeRun, hdrop, dropped, taken, he]
    · simp [takeRun, hdrop, dropped, taken, he]

/-- A lexeme is found again when a line break and another text follow. A literal is found because
its closing quote is in the first text, the others because they are runs. -/
theorem lexemeAt?_append_newline {c : Char} {cs text rest : List Char}
    (h : lexemeAt? c cs = some (text, rest)) (more : List Char) :
    lexemeAt? c (cs ++ '\n' :: more) = some (text, rest ++ '\n' :: more) := by
  have word := takeRun_append_newline (by decide : isWordChar '\n' = false)
    (by decide : isBoundary '\n' = false) cs more
  have operator : takeRun isOperatorChar (· == ' ') (cs ++ '\n' :: more) = _ :=
    takeRun_append_newline (by decide) (by decide) cs more
  have number := takeRun_append_newline (by decide : isDigit '\n' = false)
    (by decide : isBoundary '\n' = false) cs more
  unfold lexemeAt? at h ⊢
  simp only [word, operator, number]
  split at h
  · rename_i hquote
    simp only [Option.map_eq_some_iff, Prod.mk.injEq] at h
    obtain ⟨⟨body, after⟩, hcut, rfl, rfl⟩ := h
    -- more) = some (body, after ++ '\n' :: more) := by :: The quote that closes a literal is the
    -- next one, whatever follows.
    have long : cutAtQuote? (cs ++ '\n' :: more) = some (body, after ++ '\n' :: more) := by
      rw [← cutAtQuote?_append hcut, List.append_assoc]
      exact cutAtQuote?_of_not_mem (not_mem_of_cutAtQuote? hcut) _
    rw [if_pos hquote, long]
    rfl
  · rename_i hquote
    rw [if_neg hquote]
    split at h
    · rename_i hletter
      cases h
      rw [if_pos hletter]
    · rename_i hletter
      rw [if_neg hletter]
      split at h
      · rename_i hoperator
        cases h
        rw [if_pos hoperator]
      · rename_i hoperator
        rw [if_neg hoperator]
        split at h
        · rename_i hdigit
          cases h
          rw [if_pos hdigit]
        · cases h

/-- Whether a lexeme starts with a character that is no quote depends on the character only. For a
quote it depends on whether another one follows. -/
theorem lexemeAt?_eq_none_iff {c : Char} (h : c ≠ '"') (cs : List Char) :
    lexemeAt? c cs = none ↔
      isLetter c = false ∧ isOperatorChar c = false ∧ isDigit c = false := by
  cases hletter : isLetter c <;> cases hoperator : isOperatorChar c <;>
    cases hdigit : isDigit c <;> simp [lexemeAt?, h, hletter, hoperator, hdigit]

/-- A lexeme has no quote, or two. So the rest of the text has an even number of quotes, if the
whole text has. -/
theorem even_count_quote {text : List Char} (h : Lexeme.Form text) : Even (text.count '"') := by
  have none : ∀ {body : List Char}, (∀ d ∈ body, IsSolid d) → body.count '"' = 0 := by
    intro body solid
    exact List.count_eq_zero.mpr fun hquote => (solid '"' hquote).2 rfl
  cases h with
  | @literal body closed =>
    have two : ('"' :: body ++ ['"']).count '"' = 2 := by
      simp [List.count_append, List.count_eq_zero.mpr closed]
    rw [two]
    exact ⟨1, rfl⟩
  | run solid =>
    rw [none solid]
    exact Even.zero
  | spaced solid =>
    rw [List.count_append, none solid]
    decide

/-- **The scan is local.** The lexemes of two texts with a line break between them are those of
the first and those of the second, if the first has an even number of quotes. By induction on the
scan of the first text. -/
theorem scanFrom_append_newline {cs : List Char} (even : Even (cs.count '"')) (line : Nat)
    (more : List Char) :
    Lexeme.scanFrom line (cs ++ '\n' :: more) =
      Lexeme.scanFrom line cs ++ Lexeme.scanFrom (line + cs.count '\n' + 1) more := by
  fun_induction Lexeme.scanFrom line cs with
  | case1 line => simp [scanFrom_newline]
  | case2 line c cs text rest htext ih =>
    have whole := lexemeAt?_append htext
    have quotes : Even (rest.count '"') := by
      rw [← whole, List.count_append] at even
      exact (Nat.even_add.mp even).mp (even_count_quote (shape_of_lexemeAt? htext).form)
    rw [List.cons_append, scanFrom_of_some (lexemeAt?_append_newline htext more),
      ih quotes, ← whole, List.count_append, List.cons_append, Nat.add_assoc line]
  | case3 line c cs hnone ih =>
    -- A quote would be the only one, since no other one closes it.
    have hquote : c ≠ '"' := by
      rintro rfl
      have none : cs.count '"' = 0 := by
        refine List.count_eq_zero.mpr (cutAtQuote?_eq_none_iff.mp ?_)
        simpa [lexemeAt?] using hnone
      rw [List.count_cons_self, none] at even
      exact absurd even (by decide)
    have quotes : Even (cs.count '"') := by
      rwa [List.count_cons_of_ne hquote] at even
    have hnone' : lexemeAt? c (cs ++ '\n' :: more) = none :=
      (lexemeAt?_eq_none_iff hquote _).mpr ((lexemeAt?_eq_none_iff hquote _).mp hnone)
    rw [List.cons_append, scanFrom_of_none hnone']
    have ih := ih quotes
    by_cases hline : c = '\n'
    · simp only [hline, dite_true, if_true, List.count_cons_self] at ih ⊢
      rw [ih, Nat.add_assoc line 1, Nat.add_comm 1]
    · simp only [hline, dite_false, if_false, List.count_cons_of_ne hline] at ih ⊢
      exact ih

/-- The same lexeme `d` lines further down. Its text stays. -/
def Lexeme.later (d : Nat) (l : Lexeme) : Lexeme :=
  { l with line := l.line + d }

/-- The same fragment `d` lines further down. Its text stays. -/
def Fragment.later (d : Nat) (f : Fragment) : Fragment :=
  { f with line := f.line + d }

/-- Lines are counted from where the scan starts, and they have no influence on the lexemes. -/
theorem scanFrom_later (d line : Nat) (cs : List Char) :
    Lexeme.scanFrom (line + d) cs = (Lexeme.scanFrom line cs).map (Lexeme.later d) := by
  fun_induction Lexeme.scanFrom line cs with
  | case1 line => simp [Lexeme.scanFrom]
  | case2 line c cs text rest htext ih =>
    rw [scanFrom_of_some htext, List.map_cons, ← ih, Nat.add_right_comm]
    rfl
  | case3 line c cs hnone ih =>
    rw [scanFrom_of_none hnone]
    by_cases hline : c = '\n'
    · simp only [hline, dite_true, if_true] at ih ⊢
      rw [← ih, Nat.add_right_comm]
    · simp only [hline, dite_false, if_false] at ih ⊢
      exact ih

/-! ### Gathering in two parts -/

namespace Fragment

/-- The fragments of the statement that is still open when all lexemes have been gathered. This is
what `gather` drops at the end of a source. -/
def leftover (v : Vocabulary) : List Fragment → List Lexeme → List Fragment
  | opened, [] => opened
  | opened, lexeme :: rest =>
    let text := trim lexeme.text
    if v.isTerminated text then leftover v [] rest
    else
      let fragment : Fragment := ⟨String.ofList text, lexeme.line⟩
      if opened.isEmpty && v.blockClosers.contains fragment.text then leftover v [] rest
      else leftover v (opened ++ [fragment]) rest

/-- What is left of the first lexemes is where gathering goes on. By induction on the first
lexemes. -/
theorem gather_append (v : Vocabulary) (opened : List Fragment) (xs ys : List Lexeme) :
    gather v opened (xs ++ ys) = gather v opened xs ++ gather v (leftover v opened xs) ys := by
  induction xs generalizing opened with
  | nil => rfl
  | cons lexeme xs ih =>
    simp only [List.cons_append, gather, leftover]
    split
    · rw [ih, List.cons_append]
    · split
      · rw [ih, List.cons_append]
      · exact ih _

/-- Every lexeme makes a fragment, of a statement or of what is left. So a source that keeps all
its lexemes leaves nothing. -/
theorem length_gather (v : Vocabulary) (opened : List Fragment) (lexemes : List Lexeme) :
    (gather v opened lexemes).flatten.length + (leftover v opened lexemes).length =
      opened.length + lexemes.length := by
  induction lexemes generalizing opened with
  | nil => simp [gather, leftover]
  | cons lexeme rest ih =>
    have fresh := ih []
    simp only [gather, leftover]
    split
    · simp only [List.flatten_cons, List.length_append, List.length_cons, List.length_nil]
        at fresh ⊢
      omega
    · split
      · rename_i hcloser
        simp only [Bool.and_eq_true, List.isEmpty_iff] at hcloser
        simp only [hcloser.1, List.flatten_cons, List.length_append, List.length_cons,
          List.length_nil] at fresh ⊢
        omega
      · rw [ih]
        simp only [List.length_append, List.length_cons, List.length_nil]
        omega

/-- Lexemes further down are gathered into the same statements further down. Terminators and
closers are told by their texts. -/
theorem gather_later (v : Vocabulary) (d : Nat) (opened : List Fragment) (lexemes : List Lexeme) :
    gather v (opened.map (later d)) (lexemes.map (Lexeme.later d)) =
      (gather v opened lexemes).map (·.map (later d)) := by
  induction lexemes generalizing opened with
  | nil => rfl
  | cons lexeme rest ih =>
    have fresh := ih []
    have grown := ih (opened ++ [⟨String.ofList (trim lexeme.text), lexeme.line⟩])
    rw [List.map_append] at grown
    simp only [List.map_cons, gather, List.isEmpty_map, Lexeme.later]
    by_cases hterminated : v.isTerminated (trim lexeme.text) = true
    · simp only [hterminated, if_true, List.map_cons, List.map_append]
      exact congrArg _ fresh
    · by_cases hcloser :
          (opened.isEmpty && v.blockClosers.contains (String.ofList (trim lexeme.text))) = true
      · simp only [hterminated, hcloser, if_false, if_true, List.map_cons, Bool.false_eq_true]
        exact congrArg _ fresh
      · simp only [hterminated, hcloser, if_false, Bool.false_eq_true]
        exact grown

end Fragment

/-! ### Two sources -/

/-- Every lexeme of a source belongs to one of its statements; none is dropped at the end. For a
given source this can be computed. -/
def Fragment.KeepsAll (v : Vocabulary) (source : String) : Prop :=
  (Fragment.statements v source).flatten.length = (Lexeme.scan source).length

/-- The statements of two sources with a line break between them. Those of the second are further
down by the lines of the first. -/
theorem statements_append_newline {v : Vocabulary} {first : String}
    (closed : Even (first.toList.count '"')) (kept : Fragment.KeepsAll v first)
    (second : String) :
    Fragment.statements v (first ++ "\n" ++ second) =
      Fragment.statements v first ++
        (Fragment.statements v second).map
          (·.map (Fragment.later (1 + first.toList.count '\n'))) := by
  have nothing : Fragment.leftover v [] (Lexeme.scan first) = [] := by
    have count := Fragment.length_gather v [] (Lexeme.scan first)
    have kept : (Fragment.gather v [] (Lexeme.scan first)).flatten.length =
        (Lexeme.scan first).length := kept
    rw [kept, List.length_nil] at count
    exact List.length_eq_zero_iff.mp (by omega)
  have scanned : Lexeme.scan (first ++ "\n" ++ second) =
      Lexeme.scan first ++
        (Lexeme.scan second).map (Lexeme.later (1 + first.toList.count '\n')) := by
    have chars : (first ++ "\n" ++ second).toList = first.toList ++ '\n' :: second.toList := by
      simp
    rw [Lexeme.scan, chars, scanFrom_append_newline closed, Lexeme.scan, Lexeme.scan,
      ← scanFrom_later, Nat.add_comm]
  rw [Fragment.statements, scanned, Fragment.gather_append, nothing]
  exact congrArg _ (Fragment.gather_later v _ [] (Lexeme.scan second))

/-- **Separate compilation.** Take two sources that compile, the first with an even number of
quotes and without a lexeme that is dropped. With a line break between them, their statements are
those of the first and those of the second, the lines of the latter counted on; and they compile
to the code of the first without its end, and behind it the code of the second with every target
moved by the length of the former. -/
theorem compileCode_append_newline {v : Vocabulary} {m : Mnemonics} {first second : String}
    {code code' : List Instr} (closed : Even (first.toList.count '"'))
    (kept : Fragment.KeepsAll v first) (compiled : (compileCode v m first).result = .ok code)
    (compiled' : (compileCode v m second).result = .ok code') :
    Fragment.statements v (first ++ "\n" ++ second) =
        Fragment.statements v first ++
          (Fragment.statements v second).map
            (·.map (Fragment.later (1 + first.toList.count '\n'))) ∧
      ∃ body, code = body ++ [.plain .halt []] ∧
        (compileCode v m (first ++ "\n" ++ second)).result =
          .ok (body ++ code'.map (Instr.relocate body.length)) := by
  have statements := statements_append_newline closed kept second
  obtain ⟨xs, readsFirst, programFirst, rfl⟩ := compileCode_eq_ok_iff.mp compiled
  obtain ⟨ys, readsSecond, programSecond, rfl⟩ := compileCode_eq_ok_iff.mp compiled'
  refine ⟨statements, body m xs, rfl, ?_⟩
  -- The second source is read as the same statements on later lines, so up to lines it is as it
  -- was.
  have texts : textsOf (Fragment.statements v second) =
      textsOf ((Fragment.statements v second).map
        (·.map (Fragment.later (1 + first.toList.count '\n')))) := by
    simp [textsOf, Fragment.later]
  obtain ⟨zs, readsLater, same⟩ := readsSecond.of_same_texts texts
  obtain ⟨programLater, layouts⟩ := programSecond.of_same same
  refine compileCode_eq_ok_iff.mpr ⟨xs ++ zs, ?_, programFirst.append programLater, ?_⟩
  · rw [statements]
    exact readsFirst.append readsLater
  · rw [layout_append programFirst, layouts]

/-- The first source has a line break inside a literal and ends in a closer without a terminator;
the second one is a loop, of which both the known targets and the one that was set later are
moved. -/
theorem compileCode_of_loop_behind_literal :
    let first := "s=1; print(\"a\nb\" s); if s<2:endif"
    let second := "for i=0 i<9;\nendfor"
    let code : List Instr :=
      [.plain .set ["s", "1"], .plain .print ["\"a\nb\""], .plain .printflush ["s"],
        .jumpTo 5 ["lessThan", "s", "2"], .jumpTo 5 ["always"]]
    let loop : Nat → List Instr := fun n =>
      [.plain .set ["i", "0"], .jumpTo (n + 3) ["always"], .plain .op ["add", "i", "i", "1"],
        .plain .op ["lessThan", "__loop_cond", "i", "9"],
        .jumpTo (n + 6) ["equal", "__loop_cond", "false"], .jumpTo (n + 2) ["always"],
        .plain .halt []]
    Even (first.toList.count '"') ∧ Fragment.KeepsAll .standard first ∧
      (compileCode .standard .standard first).result = .ok (code ++ [.plain .halt []]) ∧
      (compileCode .standard .standard second).result = .ok (loop 0) ∧
      (compileCode .standard .standard (first ++ "\n" ++ second)).result =
        .ok (code ++ loop 5) := by
  intro first second code loop
  have closed : Even (first.toList.count '"') := by decide
  have kept : Fragment.KeepsAll .standard "s=1; print(\"a\nb\" s); if s<2:endif" := by
    unfold Fragment.KeepsAll
    set_option maxRecDepth 2000 in cbv
  have compiled :
      (compileCode .standard .standard "s=1; print(\"a\nb\" s); if s<2:endif").result = .ok
      [.plain .set ["s", "1"], .plain .print ["\"a\nb\""], .plain .printflush ["s"],
        .jumpTo 5 ["lessThan", "s", "2"], .jumpTo 5 ["always"], .plain .halt []] := by
    set_option maxRecDepth 2000 in cbv
  have compiled' : (compileCode .standard .standard "for i=0 i<9;\nendfor").result = .ok
      [.plain .set ["i", "0"], .jumpTo 3 ["always"], .plain .op ["add", "i", "i", "1"],
        .plain .op ["lessThan", "__loop_cond", "i", "9"],
        .jumpTo 6 ["equal", "__loop_cond", "false"], .jumpTo 2 ["always"], .plain .halt []] := by
    set_option maxRecDepth 2000 in cbv
  obtain ⟨-, body, hbody, linked⟩ := compileCode_append_newline closed kept compiled compiled'
  have hcode : body = code := List.append_cancel_right (hbody.symm : body ++ _ = code ++ [_])
  rw [hcode] at linked
  exact ⟨closed, kept, compiled, compiled', linked⟩

end Tickscript
