import Mathlib.Order.Bounds.Defs
import Tickscript.Proofs.Generator.Brackets
import Tickscript.Proofs.Generator.Progress
import Tickscript.Proofs.Script.Names

/-!
# `Tickscript.Proofs.Generator.Acceptance`: which programs the generator accepts

Take statements that are well-formed one by one: each of them is accepted by some generator.
Whether the generator accepts all of them as one program depends on the blocks alone, and the rule
is that of brackets, for each kind of block by itself (`accepted_iff_bracketed`). Blocks of
different kinds may cross.

The generator does not count. It keeps a stack for each kind, and `Laid` says that the stacks hold
the openers that are not taken. From there `Brackets` leads to the numbers.

A program that is refused is refused for the first stray closer, or, if there is none, for the
first opener that is left. The generator finds that opener as the smallest place in the code that
waits on a stack. Places are not positions: the jump of a loop stands four instructions behind its
start, that of a conditional only one. The order is the same nevertheless (`waitingJump_lt`),
because a block that is opened later starts behind all of the code of an earlier opener.
-/

set_option autoImplicit false

namespace Tickscript

/-! ### The earliest opener that is left -/

/-- The earliest waiting jump is one of them, and no other one comes before it. Jumps that wait at
the same place are not told apart, but there are no two of them in one program. -/
theorem Generator.earliest?_eq_some {jumps : List PendingJump} {jump : PendingJump}
    (h : earliest? jumps = some jump) :
    jump ∈ jumps ∧ ∀ other ∈ jumps, jump.index ≤ other.index := by
  induction jumps generalizing jump with
  | nil => cases h
  | cons first rest ih =>
    unfold earliest? at h
    cases hrest : earliest? rest with
    | none =>
      rw [hrest] at h
      cases h
      rw [earliest?_eq_none hrest]
      simp
    | some least =>
      obtain ⟨mem, le⟩ := ih hrest
      simp only [hrest] at h
      split at h
      · -- The jump that was found in the rest comes before the first one.
        cases h
        refine ⟨List.mem_cons_of_mem _ mem, fun other hother => ?_⟩
        rcases List.mem_cons.mp hother with rfl | hother
        · omega
        · exact le other hother
      · cases h
        refine ⟨List.mem_cons_self, fun other hother => ?_⟩
        rcases List.mem_cons.mp hother with rfl | hother
        · exact Nat.le_refl _
        · have := le other hother
          omega

/-- Of two openers, the earlier one waits at the earlier place in the code, whatever their kinds.
All of the code of the earlier opener, its jump included, stands before the later one. -/
theorem waitingJump_lt {ss : List Statement} {b : Block} {k j : Nat} (hk : k ∈ untaken ss b)
    (hlt : k < j) (other : Block) :
    (waitingJump ss b k).index < (waitingJump ss other j).index := by
  obtain ⟨s, hs, hopens⟩ := Option.bind_eq_some_iff.mp (mem_untaken.mp hk).2.1
  have room := Statement.exitOffset_lt_size hopens
  have next := address_succ hs
  have later : address ss (k + 1) ≤ address ss j := address_mono hlt
  show address ss k + b.exitOffset < address ss j + other.exitOffset
  omega

/-! ### The token that a block starts or ends with -/

/-- The first token of the statement at position `k`. An error about a block names the line of
this token, so it is how the position of a statement becomes a line of the source. -/
def headAt (statements : List (List Token)) (k : Nat) : Option Token :=
  statements[k]?.bind List.head?

/-- What is read after `for` opens a loop on the line of the keyword. Which counter, start, test
and step it has does not matter for its line. -/
theorem exists_openLoop_of_ofLoop {line : Int} {tokens : List Token} {s : Statement}
    (h : Statement.ofLoop line tokens = .ok s) :
    ∃ counter start test step, s = .openLoop line counter start test step := by
  unfold Statement.ofLoop at h
  split at h
  · split at h
    · split at h
      · cases h
      · obtain ⟨step, -, rfl⟩ := Statement.eq_openLoop_of_ofLoopParts h
        exact ⟨_, _, _, _, rfl⟩
    · cases h
  · cases h

/-- A statement that starts with a name is no end of a block. It is an assignment or it is
ignored. -/
theorem ends_of_ofNameLed {dest : Token} {rest : List Token} {s : Statement}
    (h : Statement.ofNameLed dest rest = .ok s) : s.opens = none ∧ s.closes = none := by
  unfold Statement.ofNameLed at h
  dsimp only at h
  split at h
  · cases h
    exact ⟨rfl, rfl⟩
  · split at h
    · unfold Statement.ofAssignment at h
      split at h
      · cases h
      · split at h
        · cases h
        · obtain ⟨_, -, h⟩ := bind_eq_ok h
          obtain ⟨_, -, h⟩ := bind_eq_ok h
          obtain ⟨_, -, h⟩ := bind_eq_ok h
          cases h
          exact ⟨rfl, rfl⟩
    · cases h
      exact ⟨rfl, rfl⟩

/-- A statement that opens or closes a block has the line of its first token. The cases are those
of the reader, keyword by keyword. -/
theorem exists_head_of_ofTokens {tokens : List Token} {s : Statement}
    (h : Statement.ofTokens tokens = .ok s) :
    ∃ head, tokens.head? = some head ∧ (s.opens.isSome → s.openingLine = head.line) ∧
      (s.closes.isSome → s.closingLine = head.line) := by
  unfold Statement.ofTokens at h
  split at h
  · cases h
  · rename_i head rest
    refine ⟨head, rfl, ?_⟩
    split at h
    · obtain ⟨hopens, hcloses⟩ := ends_of_ofNameLed h
      simp [hopens, hcloses]
    · unfold Statement.ofKeywordLed at h
      dsimp only at h
      -- The readers of the forms, in the order in which the keywords are tried.
      repeat' split at h
      · unfold Statement.ofConditional at h
        split at h
        · obtain ⟨_, -, h⟩ := bind_eq_ok h
          obtain ⟨_, -, h⟩ := bind_eq_ok h
          cases h
          exact ⟨fun _ => rfl, nofun⟩
        · cases h
      · unfold Statement.ofCloser at h
        split at h <;> cases h
        exact ⟨nofun, fun _ => rfl⟩
      · obtain ⟨counter, start, test, step, rfl⟩ := exists_openLoop_of_ofLoop h
        exact ⟨fun _ => rfl, nofun⟩
      · unfold Statement.ofCloser at h
        split at h <;> cases h
        exact ⟨nofun, fun _ => rfl⟩
      · unfold Statement.ofPrint at h
        split at h
        · obtain ⟨_, -, h⟩ := bind_eq_ok h
          obtain ⟨_, -, h⟩ := bind_eq_ok h
          cases h
          exact ⟨nofun, nofun⟩
        · cases h
      · cases h
    · cases h

/-- The first token of a statement that was read, and its line, for an end of a block at any
position in a program. -/
theorem exists_headAt {statements : List (List Token)} {ss : List Statement}
    (h : statements.mapM Statement.ofTokens = .ok ss) {k : Nat} {s : Statement}
    (hs : ss[k]? = some s) :
    ∃ head, headAt statements k = some head ∧ (s.opens.isSome → s.openingLine = head.line) ∧
      (s.closes.isSome → s.closingLine = head.line) := by
  obtain ⟨tokens, htokens, hread⟩ := exists_getElem?_of_mapM h hs
  obtain ⟨head, hhead, lines⟩ := exists_head_of_ofTokens hread
  refine ⟨head, ?_, lines⟩
  rw [headAt, htokens]
  exact hhead

/-! ### Acceptance -/

/-- A statement that is well-formed by itself: some generator accepts it. Without this, a program
could be refused for its operators as well, and nothing could be said about its blocks alone. -/
def WellFormed (m : Mnemonics) (tokens : List Token) : Prop :=
  ∃ g : Generator, (g.addTokens m tokens).2 = none

/-- A generator with a block of each kind open, so that it has something to close. It accepts
every statement that any generator accepts. -/
def Generator.halfway : Generator :=
  { conditionals := [⟨0, .conditional, 0⟩], loops := [⟨0, .loop, 0⟩] }

/-- A statement is well-formed exactly if it can be read and its operators are supported. The
state of the generator drops out, because all that it decides is whether a closer finds an
opener. -/
theorem wellFormed_iff {m : Mnemonics} {tokens : List Token} :
    WellFormed m tokens ↔ ∃ s, Statement.ofTokens tokens = .ok s ∧ s.Supported m := by
  constructor
  · rintro ⟨g, h⟩
    unfold Generator.addTokens at h
    split at h
    · rename_i s hs
      exact ⟨s, hs, (Generator.add_eq_none_iff.mp h).1⟩
    · cases h
  · rintro ⟨s, hs, supported⟩
    refine ⟨.halfway, ?_⟩
    have hopen : ∀ b, Generator.halfway.stack b ≠ [] := by
      intro b
      cases b <;> exact List.cons_ne_nil _ _
    simp only [Generator.addTokens, hs]
    exact Generator.add_eq_none_iff.mpr ⟨supported, fun b _ => hopen b⟩

/-- Why a program of well-formed statements is refused: for its first stray closer; or, if it has
none, for the first opener that is left when each closer has taken the nearest opener of its kind.

The line in the error is that of the first token of the statement in question, and the kind is its
own. The smallest position is taken over both kinds. -/
inductive Unbalanced (statements : List (List Token)) (ss : List Statement) :
    CompileError → Prop where
  | stray {b : Block} {j : Nat} {head : Token} (first : IsLeast {i | ∃ b, IsStray ss b i} j)
      (closer : IsStray ss b j) (place : headAt statements j = some head) :
      Unbalanced statements ss (.unmatchedCloser b head.line)
  | unclosed {b : Block} {k : Nat} {head : Token} (matched : ∀ b j, ¬IsStray ss b j)
      (first : IsLeast {i | ∃ b, i ∈ untaken ss b} k) (opener : k ∈ untaken ss b)
      (place : headAt statements k = some head) :
      Unbalanced statements ss (.unclosedBlock b head.line)

/-- Of supported statements only a closer is refused, and only if no block of its kind is open.
The stack of that kind is then empty, and so is the list of openers that are left (`Laid`). -/
theorem refused_of_supported {m : Mnemonics} {ss : List Statement} {g after : Generator}
    (laid : Laid m ss g) {s : Statement} (supported : s.Supported m) {e : CompileError}
    (h : g.add m s = (after, some e)) :
    ∃ b, s.closes = some b ∧ untaken ss b = [] ∧ e = .unmatchedCloser b s.closingLine := by
  cases hcloses : s.closes with
  | none =>
    obtain ⟨accepted, haccepted⟩ := Generator.exists_add_of_supported supported hcloses g
    rw [haccepted] at h
    cases h
  | some b =>
    cases hstack : g.stack b with
    | nil =>
      rw [Generator.add_of_stray hcloses hstack m] at h
      cases h
      refine ⟨b, rfl, ?_, rfl⟩
      rw [laid.stack b] at hstack
      exact List.map_eq_nil_iff.mp hstack
    | cons jump rest =>
      obtain ⟨accepted, haccepted⟩ :=
        Generator.exists_add_of_open hcloses
          (by rw [hstack]; exact List.cons_ne_nil _ _ : g.stack b ≠ []) m
      rw [haccepted] at h
      cases h

/-- A refusal on the way is for the first stray closer. The statements before it have been
accepted, which is the hypothesis `adds`, and the ones behind it have not been looked at. -/
theorem unbalanced_of_refused {m : Mnemonics} {statements : List (List Token)}
    {before rest : List Statement} {s : Statement} {mid after : Generator} {e : CompileError}
    (read : statements.mapM Statement.ofTokens = .ok (before ++ s :: rest))
    (supported : s.Supported m) (adds : Generator.Adds m {} before mid)
    (h : mid.add m s = (after, some e)) :
    Unbalanced statements (before ++ s :: rest) e := by
  have laid : Laid m before mid := (laid_nil m).adds adds
  obtain ⟨b, hcloses, none, rfl⟩ := refused_of_supported laid supported h
  have here : (before ++ s :: rest)[before.length]? = some s := by simp
  obtain ⟨head, place, -, hline⟩ := exists_headAt read here
  -- rest = (before ++ [s]) ++ rest := by simp :: Strayness does not depend on what follows, so
  -- the program may end at `s`.
  have shape : before ++ s :: rest = (before ++ [s]) ++ rest := by simp
  have stray : IsStray (before ++ s :: rest) b before.length := by
    rw [shape, isStray_append (by simp)]
    exact isStray_concat_length.mpr ⟨hcloses, none⟩
  rw [hline (by rw [hcloses]; rfl)]
  refine .stray ⟨⟨b, stray⟩, ?_⟩ stray place
  -- All statements before were accepted, and their closers have taken openers.
  rintro i ⟨other, hi⟩
  by_contra hlt
  exact laid.not_isStray other i ((isStray_append (by omega) _ other).mp hi)

/-- A refusal at the end is for the first opener that is left. The generator finds it among both
stacks by the place of its jump, and `waitingJump_lt` turns the order of places into that of
positions. -/
theorem unbalanced_of_unclosed {m : Mnemonics} {statements : List (List Token)}
    {ss : List Statement} {g : Generator} (read : statements.mapM Statement.ofTokens = .ok ss)
    (laid : Laid m ss g) {jump : PendingJump}
    (h : Generator.earliest? (g.conditionals ++ g.loops) = some jump) :
    Unbalanced statements ss (.unclosedBlock jump.block jump.line) := by
  obtain ⟨mem, least⟩ := Generator.earliest?_eq_some h
  have onStack : ∀ other b, other ∈ g.stack b → other ∈ g.conditionals ++ g.loops := by
    intro other b hother
    cases b with
    | conditional => exact List.mem_append_left _ hother
    | loop => exact List.mem_append_right _ hother
  have found : ∃ b, jump ∈ g.stack b := by
    rcases List.mem_append.mp mem with hmem | hmem
    · exact ⟨.conditional, hmem⟩
    · exact ⟨.loop, hmem⟩
  obtain ⟨b, hjump⟩ := found
  rw [laid.stack b] at hjump
  obtain ⟨k, hk, rfl⟩ := List.mem_map.mp hjump
  obtain ⟨s, hs, hopens⟩ := Option.bind_eq_some_iff.mp (mem_untaken.mp hk).2.1
  obtain ⟨head, place, hline, -⟩ := exists_headAt read hs
  have line : (waitingJump ss b k).line = head.line := by
    rw [← hline (by rw [hopens]; rfl)]
    simp [waitingJump, lineAt, hs]
  rw [line]
  refine .unclosed laid.not_isStray ⟨⟨b, hk⟩, ?_⟩ hk place
  rintro i ⟨other, hi⟩
  by_contra hlt
  -- An opener that is left further ahead would wait at an earlier place.
  have earlier := waitingJump_lt hi (by omega : i < k) b
  have mem :=
    onStack (waitingJump ss other i) other (by rw [laid.stack]; exact List.mem_map_of_mem hi)
  have := least _ mem
  omega

/-- A program that is refused in one of these ways is not bracketed, and the error says that a
block is unbalanced. So the two outcomes of `accepted_or_unbalanced` exclude one another. -/
theorem Unbalanced.not_bracketed {statements : List (List Token)} {ss : List Statement}
    {e : CompileError} (h : Unbalanced statements ss e) :
    (¬∀ b, Bracketed b ss) ∧ e.category = .unbalancedBlock := by
  cases h with
  | @stray b j head first closer place =>
    refine ⟨fun bracketed => ?_, rfl⟩
    exact (bracketed_iff.mp (bracketed b)).1 j closer
  | @unclosed b k head matched first opener place =>
    refine ⟨fun bracketed => ?_, rfl⟩
    rw [(bracketed_iff.mp (bracketed b)).2] at opener
    cases opener

/-- A program of supported statements is bracketed and accepted, or it is refused as unbalanced.
The generator is a fresh one, and it either goes through all statements or stops at one of
them. -/
theorem accepted_or_unbalanced {m : Mnemonics} {statements : List (List Token)}
    {ss : List Statement} (read : statements.mapM Statement.ofTokens = .ok ss)
    (supported : ∀ s ∈ ss, s.Supported m) :
    ((Generator.generate m {} statements).2 = none ∧ ∀ b, Bracketed b ss) ∨
      ∃ e, (Generator.generate m {} statements).2 = some e ∧ Unbalanced statements ss e := by
  rcases Generator.addAll_cases (m := m) (g := {}) read with
    ⟨reached, hall, adds⟩ | ⟨before, s, rest, mid, after, e, rfl, adds, hrefused, hall⟩
  · -- All statements were added, so only the end can refuse the program.
    have laid : Laid m ss reached := (laid_nil m).adds adds
    have whole : Generator.generate m {} statements = reached.finish := by
      simp only [Generator.generate, Generator.reset, hall]
    rw [whole]
    unfold Generator.finish
    cases hopen : Generator.earliest? (reached.conditionals ++ reached.loops) with
    | some jump => exact Or.inr ⟨_, rfl, unbalanced_of_unclosed read laid hopen⟩
    | none =>
      refine Or.inl ⟨rfl, fun b => bracketed_iff.mpr ⟨laid.not_isStray b, ?_⟩⟩
      -- Both stacks are empty, and they are the openers that are left.
      have empty := List.append_eq_nil_iff.mp (Generator.earliest?_eq_none hopen)
      have stack : reached.stack b = [] := by
        cases b with
        | conditional => exact empty.1
        | loop => exact empty.2
      rw [laid.stack b] at stack
      exact List.map_eq_nil_iff.mp stack
  · refine Or.inr ⟨e, ?_, unbalanced_of_refused read (supported s (by simp)) adds hrefused⟩
    simp only [Generator.generate, Generator.reset, hall]

/-- **Block acceptance is exact.** Take statements that are well-formed one by one, and a
generator with any history. The program is accepted exactly if the openers and closers of each
kind make a bracket word, the kinds apart from one another. Otherwise it is refused as unbalanced:
at the line of the first closer that takes no opener of its kind; and if every closer takes one,
at the line and with the kind of the first opener that no closer has taken. -/
theorem accepted_iff_bracketed {m : Mnemonics} {statements : List (List Token)}
    (wellFormed : ∀ tokens ∈ statements, WellFormed m tokens) (g : Generator) :
    ∃ ss, statements.mapM Statement.ofTokens = .ok ss ∧
      ((g.generate m statements).2 = none ↔ ∀ b, Bracketed b ss) ∧
      ((¬∀ b, Bracketed b ss) → ∃ e, (g.generate m statements).2 = some e ∧
        e.category = .unbalancedBlock ∧ Unbalanced statements ss e) := by
  obtain ⟨ss, read⟩ : ∃ ss, statements.mapM Statement.ofTokens = .ok ss := by
    refine exists_mapM_eq_ok fun tokens htokens => ?_
    obtain ⟨s, hs, -⟩ := wellFormed_iff.mp (wellFormed tokens htokens)
    exact ⟨s, hs⟩
  have supported : ∀ s ∈ ss, s.Supported m := by
    intro s hs
    obtain ⟨tokens, htokens, hread⟩ := exists_of_mem_mapM read hs
    obtain ⟨t, ht, supported⟩ := wellFormed_iff.mp (wellFormed tokens htokens)
    rw [hread] at ht
    cases ht
    exact supported
  refine ⟨ss, read, ?_⟩
  -- The history of a generator does not matter, so a fresh one may take its place.
  rw [Generator.generate_outcome]
  rcases accepted_or_unbalanced read supported with ⟨accepted, bracketed⟩ |
    ⟨e, refused, unbalanced⟩
  · exact ⟨iff_of_true accepted bracketed, fun not => absurd bracketed not⟩
  · obtain ⟨not, category⟩ := unbalanced.not_bracketed
    refine ⟨iff_of_false (by rw [refused]; nofun) not,
      fun _ => ⟨e, refused, category, unbalanced⟩⟩

/-- A conditional and a loop cross, and the conditional is never closed. The jump of the loop is
the first in the code that was waiting, but it has been set; the conditional on line three is
reported. -/
theorem accepted_iff_of_crossing_blocks :
    let crossing : List (List Token) :=
      [[⟨.keyword, "for", 1⟩, ⟨.name, "i", 1⟩, ⟨.operator, "=", 1⟩, ⟨.value, "0", 1⟩,
          ⟨.name, "i", 1⟩, ⟨.operator, "<", 1⟩, ⟨.value, "3", 1⟩],
        [⟨.keyword, "if", 3⟩, ⟨.name, "x", 3⟩, ⟨.operator, "<", 3⟩, ⟨.name, "i", 3⟩],
        [⟨.keyword, "endfor", 4⟩]]
    (∀ tokens ∈ crossing, WellFormed .standard tokens) ∧
      (Generator.generate .standard {} crossing).2 = some (.unclosedBlock .conditional 3) ∧
      ∃ ss, crossing.mapM Statement.ofTokens = .ok ss ∧ (¬∀ b, Bracketed b ss) ∧
        Unbalanced crossing ss (.unclosedBlock .conditional 3) := by
  intro crossing
  have wellFormed : ∀ tokens ∈ crossing, WellFormed .standard tokens := by
    intro tokens htokens
    refine ⟨.halfway, ?_⟩
    revert tokens
    decide
  have refused : (Generator.generate .standard {} crossing).2 =
      some (.unclosedBlock .conditional 3) := by
    decide
  obtain ⟨ss, read, iff, unbalanced⟩ := accepted_iff_bracketed wellFormed {}
  rw [refused] at iff unbalanced
  have not : ¬∀ b, Bracketed b ss := fun bracketed => nomatch iff.mpr bracketed
  obtain ⟨e, he, -, why⟩ := unbalanced not
  cases he
  exact ⟨wellFormed, refused, ss, read, not, why⟩

end Tickscript
