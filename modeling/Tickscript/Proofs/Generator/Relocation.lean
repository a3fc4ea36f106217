import Mathlib.Data.List.Induction
import Tickscript.Compile
import Tickscript.Proofs.Generator.Acceptance

/-!
# `Tickscript.Proofs.Generator.Relocation`: two programs one after the other

Statements that are supported and bracketed make a program (`IsProgram`), and the code of a
program is its layout (`compileTokens_eq_ok_iff`). So the generator need not be run again to say
what it makes of two programs in a row: it is enough to lay them out.

The second program then stands behind the code of the first. All of its targets grow by the length
of that code, those that are known at once and those that are set by a closer (`body_append`).
Nothing else changes, because the first program leaves no opener that a closer of the second could
take (`untaken_append`).
-/

set_option autoImplicit false

namespace Tickscript

/-! ### Programs -/

/-- The statements `ss` make a program: their operators are supported, and the blocks of each kind
are bracketed. These are the programs that the generator accepts, said without the generator. -/
structure IsProgram (m : Mnemonics) (ss : List Statement) : Prop where
  supported : ∀ s ∈ ss, s.Supported m
  bracketed : ∀ b, Bracketed b ss

/-- Lists of tokens compile exactly if they can be read as a program, and they compile to its
layout. From here on, code is a matter of layouts. -/
theorem compileTokens_eq_ok_iff {m : Mnemonics} {statements : List (List Token)}
    {code : List Instr} :
    (compileTokens m statements).result = .ok code ↔
      ∃ ss, statements.mapM Statement.ofTokens = .ok ss ∧ IsProgram m ss ∧
        code = layout m ss := by
  have accepted : (Generator.generate m {} statements).2 = none →
      ∃ ss, statements.mapM Statement.ofTokens = .ok ss ∧ IsProgram m ss ∧
        (Generator.generate m {} statements).1.code = layout m ss := by
    intro h
    obtain ⟨ss, g, read, laid, left, hgenerate⟩ := laid_of_generate h
    refine ⟨ss, read, ⟨laid.supported, fun b => bracketed_iff.mpr ⟨laid.not_isStray b, left b⟩⟩,
      ?_⟩
    rw [hgenerate, layout, ← laid.code]
    rfl
  unfold compileTokens
  cases hgenerate : Generator.generate m {} statements with
  | mk g outcome =>
    rw [hgenerate] at accepted
    cases outcome with
    | none =>
      obtain ⟨ss, read, program, hcode⟩ := accepted rfl
      constructor
      · intro h
        cases h
        exact ⟨ss, read, program, hcode⟩
      · rintro ⟨others, hothers, -, rfl⟩
        rw [read] at hothers
        cases hothers
        exact congrArg Except.ok hcode
    -- A program that was refused is unbalanced, and then it is none.
    | some e =>
      refine iff_of_false nofun ?_
      rintro ⟨ss, read, program, -⟩
      rcases accepted_or_unbalanced read program.supported with ⟨ok, -⟩ | ⟨e', -, unbalanced⟩
      · rw [hgenerate] at ok
        cases ok
      · exact unbalanced.not_bracketed.1 program.bracketed

/-! ### Blocks of two programs -/

/-- The openers of two programs one after the other, as a sum. -/
theorem openerCount_append (b : Block) (xs ys : List Statement) :
    openerCount b (xs ++ ys) = openerCount b xs + openerCount b ys :=
  List.countP_append

/-- The closers of two programs one after the other, as a sum. -/
theorem closerCount_append (b : Block) (xs ys : List Statement) :
    closerCount b (xs ++ ys) = closerCount b xs + closerCount b ys :=
  List.countP_append

/-- Two bracket words one after the other are a bracket word. A prefix of both is a prefix of the
first and one of the second. -/
theorem Bracketed.append {b : Block} {xs ys : List Statement} (hx : Bracketed b xs)
    (hy : Bracketed b ys) : Bracketed b (xs ++ ys) where
  prefixes n := by
    have first := hx.prefixes n
    have second := hy.prefixes (n - xs.length)
    rw [List.take_append, openerCount_append, closerCount_append]
    omega
  totals := by
    rw [openerCount_append, closerCount_append, hx.totals, hy.totals]

/-- Two programs one after the other are a program, as each statement is supported and each kind
of block stays bracketed. -/
theorem IsProgram.append {m : Mnemonics} {xs ys : List Statement} (hx : IsProgram m xs)
    (hy : IsProgram m ys) : IsProgram m (xs ++ ys) where
  supported s hs := by
    rcases List.mem_append.mp hs with hs | hs
    · exact hx.supported s hs
    · exact hy.supported s hs
  bracketed b := (hx.bracketed b).append (hy.bracketed b)

/-- Behind statements that leave no opener, the openers that are left are those of the later
statements. Positions are counted from the start of both. The induction is on the later
statements, from the back. -/
theorem untaken_append {xs : List Statement} (closed : ∀ b, untaken xs b = [])
    (ys : List Statement) (b : Block) :
    untaken (xs ++ ys) b = (untaken ys b).map (xs.length + ·) := by
  induction ys using List.reverseRecOn generalizing b with
  | nil =>
    rw [List.append_nil, closed b]
    rfl
  | append_singleton ys s ih =>
    rw [← List.append_assoc]
    cases hopens : s.opens with
    | some opened =>
      by_cases hb : b = opened
      · subst hb
        rw [untaken_concat_opener hopens, untaken_concat_opener hopens, ih, List.map_cons,
          List.length_append]
      · rw [untaken_concat_opener_of_ne hopens hb, untaken_concat_opener_of_ne hopens hb, ih]
    | none =>
      cases hcloses : s.closes with
      | none => rw [untaken_concat_plain hopens hcloses, untaken_concat_plain hopens hcloses, ih]
      | some kind =>
        -- The closer takes the same opener in both, or none.
        have same := ih kind
        cases top : untaken ys kind with
        | nil =>
          rw [top, List.map_nil] at same
          rw [untaken_concat_of_stray hcloses top, untaken_concat_of_stray hcloses same, ih]
        | cons k rest =>
          rw [top, List.map_cons] at same
          by_cases hb : b = kind
          · subst hb
            rw [untaken_concat_closer hcloses top, untaken_concat_closer hcloses same]
          · rw [untaken_concat_closer_of_ne hcloses top hb,
              untaken_concat_closer_of_ne hcloses same hb, ih]

/-! ### Moved code -/

/-- The instruction for code that stands `n` addresses further behind. Only a target changes; an
instruction without one stays as it is. -/
def Instr.relocate (n : Nat) (i : Instr) : Instr :=
  { i with target := i.target.map (· + (n : Int)) }

/-- An instruction without a target can stand anywhere. -/
@[simp] theorem Instr.relocate_plain (n : Nat) (opcode : Opcode) (args : List String) :
    (Instr.plain opcode args).relocate n = .plain opcode args := rfl

/-- A jump with a target that is known at once: it is an offset from the address of the statement,
and that address moves. -/
theorem Instr.relocate_jumpTo (n base : Nat) (k : Int) (args : List String) :
    (Instr.jumpTo (base + k) args).relocate n = .jumpTo ((n + base : Nat) + k) args := by
  have moved : (base : Int) + k + n = (n + base : Nat) + k := by omega
  show Instr.jumpTo (base + k + n) args = _
  rw [moved]

/-- A jump with a target from the other end of its block. That end moves by as much, and a target
that is missing stays missing. -/
theorem Instr.relocate_jumpTo? (n : Nat) (target : Option Nat) (args : List String) :
    (Instr.jumpTo? target args).relocate n = .jumpTo? (target.map (n + ·)) args := by
  cases target with
  | none => rfl
  | some target => simp [Instr.relocate, Instr.jumpTo?, Int.add_comm]

/-- Setting a target and moving the code may change places, if the target moves too. -/
theorem Instr.relocate_withTarget (n target : Nat) (i : Instr) :
    (i.withTarget target).relocate n = (i.relocate n).withTarget (n + target) := by
  simp [Instr.relocate, Instr.withTarget, Int.add_comm]

/-- An instruction that combines values does not depend on where it stands. -/
theorem relocate_combineInstr (m : Mnemonics) (n : Nat) (dest left : String) (op : Token)
    (right : String) :
    (combineInstr m dest left op right).relocate n = combineInstr m dest left op right := by
  unfold combineInstr
  split <;> rfl

/-- A chain of operators does not depend on where it stands, by induction on the chain. -/
theorem map_relocate_combineAll (m : Mnemonics) (n : Nat) (dest left : String)
    (rest : List (Token × String)) :
    (combineAll m dest left rest).map (Instr.relocate n) = combineAll m dest left rest := by
  induction rest generalizing left with
  | nil => rfl
  | cons pair rest ih => rw [combineAll, List.map_cons, relocate_combineInstr, ih]

/-- The step of a loop does not depend on where it stands. -/
theorem relocate_advanceInstr (m : Mnemonics) (n : Nat) (counter : String) (step : Option Step) :
    (advanceInstr m counter step).relocate n = advanceInstr m counter step := by
  cases step with
  | none => rfl
  | some step => exact relocate_combineInstr m n step.dest step.left step.op step.right

/-- The code of a statement that is moved together with the other end of its block. There is one
case for each form; only the ends of blocks have targets. -/
theorem Statement.code_relocate (m : Mnemonics) (n own : Nat) (partner : Option Nat)
    (s : Statement) :
    s.code m (n + own) (partner.map (n + ·)) = (s.code m own partner).map (Instr.relocate n) := by
  -- A target inside a block is given from the other end, by adding to its address.
  have offset : ∀ k, (partner.map (n + ·)).map (· + k) = (partner.map (· + k)).map (n + ·) := by
    intro k
    cases partner with
    | none => rfl
    | some address => simp [Nat.add_assoc]
  cases s with
  | assign dest first rest =>
    cases rest with
    | nil => rfl
    | cons pair rest => exact (map_relocate_combineAll m n dest first (pair :: rest)).symm
  | openConditional line test =>
    simp only [code, List.map_cons, List.map_nil, Instr.relocate_jumpTo, Instr.relocate_jumpTo?]
  | openLoop line counter start test step =>
    simp only [code, List.map_cons, List.map_nil, Instr.relocate_plain, Instr.relocate_jumpTo,
      Instr.relocate_jumpTo?, relocate_advanceInstr, offset]
  | closeLoop line =>
    simp only [code, List.map_cons, List.map_nil, Instr.relocate_jumpTo?, offset]
  | ignored line words => rfl
  | closeConditional line => rfl
  | print value device => rfl

/-! ### The layout of two programs -/

/-- Addresses of later statements are counted from behind the earlier ones. So a whole program
moves by one and the same distance. -/
theorem address_append_add (xs ys : List Statement) (k : Nat) :
    address (xs ++ ys) (xs.length + k) = address xs xs.length + address ys k := by
  simp only [address, List.take_length_add_append, List.map_append, List.sum_append,
    List.take_length]

/-- Setting a target in moved code. The place and the target both move by the length of what
stands in front. -/
theorem modify_relocate (before code : List Instr) (i target : Nat) :
    (before ++ code.map (Instr.relocate before.length)).modify (before.length + i)
        (Instr.withTarget (before.length + target)) =
      before ++ (code.modify i (Instr.withTarget target)).map (Instr.relocate before.length) := by
  refine List.ext_getElem? fun j => ?_
  simp only [List.getElem?_modify, List.getElem?_append, List.getElem?_map]
  -- The code in front is not touched; behind it, the place is the patched one or another one.
  by_cases hj : j < before.length
  · have hne : ¬before.length + i = j := by omega
    simp [hj, hne]
  · by_cases hi : before.length + i = j
    · subst hi
      simp only [hj, if_false, if_true, Nat.add_sub_cancel_left]
      simp [Function.comp_def, Instr.relocate_withTarget]
    · have hne : ¬i = j - before.length := by omega
      simp [hj, hi, hne]

/-- **Separate layout.** The code of two programs one after the other is the code of the first and
behind it that of the second, moved by the length of the first. The induction is on the second
program, from the back, one statement at a time. -/
theorem body_append {m : Mnemonics} {xs : List Statement} (closed : ∀ b, untaken xs b = [])
    (ys : List Statement) :
    body m (xs ++ ys) = body m xs ++ (body m ys).map (Instr.relocate (body m xs).length) := by
  induction ys using List.reverseRecOn with
  | nil =>
    rw [List.append_nil]
    exact (List.append_nil _).symm
  | append_singleton ys s ih =>
    have last : address (xs ++ ys) (xs ++ ys).length = (body m xs).length +
        address ys ys.length := by
      rw [List.length_append, address_append_add, length_body]
    -- A statement that makes no span adds its code at the end.
    have plain : spans (xs ++ ys ++ [s]) = spans (xs ++ ys) → spans (ys ++ [s]) = spans ys →
        body m (xs ++ ys ++ [s]) =
          body m xs ++ (body m (ys ++ [s])).map (Instr.relocate (body m xs).length) := by
      intro long short
      have moved := Statement.code_relocate m (body m xs).length (address ys ys.length) none s
      rw [Option.map_none] at moved
      rw [body_concat long, body_concat short, ih, last, moved, List.map_append,
        List.append_assoc]
    rw [← List.append_assoc]
    cases hcloses : s.closes with
    | none =>
      exact plain (spans_concat_of_closes_eq_none hcloses)
        (spans_concat_of_closes_eq_none hcloses)
    | some b =>
      have same := untaken_append closed ys b
      cases top : untaken ys b with
      | nil =>
        rw [top, List.map_nil] at same
        exact plain (spans_concat_of_stray hcloses same) (spans_concat_of_stray hcloses top)
      -- The closer takes the same opener in both, and patches the same instruction of it.
      | cons k rest =>
        rw [top, List.map_cons] at same
        have opener : address (xs ++ ys) (xs.length + k) = (body m xs).length + address ys k := by
          rw [address_append_add, length_body]
        have moved := Statement.code_relocate m (body m xs).length (address ys ys.length)
          (some (address ys k)) s
        rw [Option.map_some] at moved
        rw [body_concat_closer hcloses same, body_concat_closer hcloses top, ih, opener,
          last, moved, List.map_append, Nat.add_assoc, Nat.add_assoc, modify_relocate,
          List.append_assoc]

/-- The same for whole programs. The end of the first one goes, so the first one runs on into the
second. -/
theorem layout_append {m : Mnemonics} {xs : List Statement} (hx : IsProgram m xs)
    (ys : List Statement) :
    layout m (xs ++ ys) = body m xs ++ (layout m ys).map (Instr.relocate (body m xs).length) := by
  have closed : ∀ b, untaken xs b = [] := fun b => (bracketed_iff.mp (hx.bracketed b)).2
  rw [layout, layout, body_append closed, List.map_append, List.append_assoc]
  rfl

end Tickscript
