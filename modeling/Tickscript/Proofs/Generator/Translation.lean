import Tickscript.Proofs.Generator.PendingJumps

/-!
# `Tickscript.Proofs.Generator.Translation`: the code of one statement

`Statement.code` is the code of a statement by itself: it needs the statement's own address and,
for the two ends of a block, the address of the other end. Nothing in it is patched later, and it
always has `Statement.size` instructions. `Supported` says which operators a statement may use.

The lemmas on `add` tie the generator to these two. A statement that the generator accepts is
supported, and the generator has added its code: all of it for a statement that is no end of a
block (`add_plain`), with one jump still unset for an opener (`add_opener`), and for a closer
after setting that jump (`add_closer`). Both kinds of blocks are treated at once: they differ in
how far behind its address an opener leaves the unset jump, and in the size of the closer.
-/

set_option autoImplicit false

namespace Tickscript

/-- How far behind the start of a block stands the jump out of it. This is the place that goes on
the stack of the kind. -/
def Block.exitOffset : Block → Nat
  | .conditional => 1
  | .loop => 4

/-- How many instructions the closer of a block has. A loop is closed by the jump back. The end of
a conditional needs no instruction: its opener jumps to whatever comes next. -/
def Block.closerSize : Block → Nat
  | .conditional => 0
  | .loop => 1

/-- A jump whose target may be unknown. It is an unset jump without the target, and a plain jump
with it. -/
def Instr.jumpTo? (target : Option Nat) (args : List String) : Instr :=
  { opcode := .jump, args, target := target.map Int.ofNat }

/-- With its target, it is the jump that the machine knows. -/
@[simp] theorem Instr.jumpTo?_some (target : Nat) (args : List String) :
    Instr.jumpTo? (some target) args = .jumpTo target args := rfl

/-! ### The code of a statement -/

/-- The operation word for an operator. It is used for supported operators only, so what it gives
for others does not matter. -/
def operationWord (m : Mnemonics) (op : Token) : String :=
  (m.get? op.text).getD ""

/-- The instruction that combines two operands. It is what `computeInstr` makes when it makes one,
but without the possibility of an error. -/
def combineInstr (m : Mnemonics) (dest left : String) (op : Token) (right : String) : Instr :=
  if op.text = sensorOperator then .plain .sensor [dest, left, right]
  else .plain .op [operationWord m op, dest, left, right]

/-- The instructions that combine `left` with the operands of a chain, one after the other. From
the second operator on the left operand is the destination itself. -/
def combineAll (m : Mnemonics) (dest : String) : String → List (Token × String) → List Instr
  | _, [] => []
  | left, (op, right) :: rest => combineInstr m dest left op right :: combineAll m dest dest rest

/-- The instruction that steps a loop: the step of the source, or the standard one, which adds one
to the counter. -/
def advanceInstr (m : Mnemonics) (counter : String) : Option Step → Instr
  | some step => combineInstr m step.dest step.left step.op step.right
  | none => .plain .op ["add", counter, counter, "1"]

namespace Statement

/-- The kind of block that a statement opens. All proofs about blocks go by this and by `closes`,
and not by the forms of statements. -/
def opens : Statement → Option Block
  | .openConditional .. => some .conditional
  | .openLoop .. => some .loop
  | _ => none

/-- The kind of block that a statement closes. Closers are two forms of statements, one for each
kind. -/
def closes : Statement → Option Block
  | .closeConditional _ => some .conditional
  | .closeLoop _ => some .loop
  | _ => none

/-- The line on which a block is opened, which a notice about it names. -/
def openingLine : Statement → Int
  | .openConditional line _ => line
  | .openLoop line .. => line
  | _ => 0

/-- How many instructions a statement has. An assignment with `n` operands, that is with `n - 1`
of them in `rest`, has one for each operator, and one if there is no operator. -/
def size : Statement → Nat
  | .ignored .. => 0
  | .assign _ _ rest => max 1 rest.length
  | .openConditional .. => 2
  | .closeConditional _ => 0
  | .openLoop .. => 5
  | .closeLoop _ => 1
  | .print .. => 2

/-- The code of a statement at the address `own`. `partner` is the address of the other end of the
block that the statement opens or closes; without it the jump that needs it has no target. -/
def code (m : Mnemonics) (own : Nat) (partner : Option Nat) : Statement → List Instr
  | .ignored .. => []
  | .assign dest first rest =>
    if rest.isEmpty then [.plain .set [dest, first]] else combineAll m dest first rest
  | .openConditional _ test =>
    [.jumpTo (own + 2) [operationWord m test.op, test.left, test.right],
      .jumpTo? partner [always]]
  | .closeConditional _ => []
  | .openLoop _ counter start test step =>
    [.plain .set [counter, start], .jumpTo (own + 3) [always], advanceInstr m counter step,
      .plain .op [operationWord m test.op, loopFlag, test.left, test.right],
      .jumpTo? (partner.map (· + 1)) ["equal", loopFlag, "false"]]
  | .closeLoop _ => [.jumpTo? (partner.map (· + 2)) [always]]
  | .print value device => [.plain .print [value], .plain .printflush [device]]

end Statement

/-- A chain has one instruction for each operator, whichever operators these are. -/
@[simp] theorem length_combineAll (m : Mnemonics) (dest left : String)
    (rest : List (Token × String)) : (combineAll m dest left rest).length = rest.length := by
  induction rest generalizing left with
  | nil => rfl
  | cons pair rest ih => simp [combineAll, ih]

/-- The code of a statement has as many instructions as the statement has size, wherever it stands
and whether or not the other end is known. -/
@[simp] theorem Statement.length_code (m : Mnemonics) (own : Nat) (partner : Option Nat)
    (s : Statement) : (s.code m own partner).length = s.size := by
  cases s with
  | assign dest first rest =>
    cases rest with
    | nil => rfl
    | cons pair rest => simp [Statement.code, Statement.size]
  | _ => rfl

/-- The closer of a block has the size of its kind, so addresses behind a block can be computed
from the kind alone. -/
theorem Statement.size_of_closes {s : Statement} {b : Block} (h : s.closes = some b) :
    s.size = b.closerSize := by
  cases s with
  | closeConditional line => cases h; rfl
  | closeLoop line => cases h; rfl
  | _ => cases h

/-- The code of an opener has room for the jump out of the block. So the place on the stack is one
of the opener's own instructions. -/
theorem Statement.exitOffset_lt_size {s : Statement} {b : Block} (h : s.opens = some b) :
    b.exitOffset < s.size := by
  cases s with
  | openConditional line test => cases h; exact Nat.lt_succ_self 1
  | openLoop line counter start test step => cases h; exact Nat.lt_succ_self 4
  | _ => cases h

/-- A statement that opens a block closes none. There is no word in the language that would do
both. -/
theorem Statement.closes_of_opens {s : Statement} {b : Block} (h : s.opens = some b) :
    s.closes = none := by
  cases s with
  | closeConditional line => cases h
  | closeLoop line => cases h
  | _ => rfl

/-- A statement that closes a block opens none, as in `Statement.closes_of_opens`. -/
theorem Statement.opens_of_closes {s : Statement} {b : Block} (h : s.closes = some b) :
    s.opens = none := by
  cases s with
  | openConditional line test => cases h
  | openLoop line counter start test step => cases h
  | _ => rfl

/-- Setting the jump that an opener leaves unset gives the code of the opener that knows its
closer. This is why patching is right: it makes the code that would have been written with the
closer known from the start. -/
theorem Statement.modify_code {s : Statement} {b : Block} (h : s.opens = some b) (m : Mnemonics)
    (own closer : Nat) :
    (s.code m own none).modify b.exitOffset (Instr.withTarget (closer + b.closerSize)) =
      s.code m own (some closer) := by
  cases s with
  | openConditional line test => cases h; rfl
  | openLoop line counter start test step => cases h; rfl
  | _ => cases h

/-! ### Which operators a statement may use -/

/-- An operator that values can be combined with: the one that reads a property, or one of the
table. -/
def Mnemonics.Supports (m : Mnemonics) (op : Token) : Prop :=
  op.text = sensorOperator ∨ (m.get? op.text).isSome

/-- An operator that a test may use. The token must be an operator, because the reader has not
checked that; it must compare; and the table must have it. -/
def Mnemonics.SupportsTest (m : Mnemonics) (op : Token) : Prop :=
  op.kind = .operator ∧ op.text ∈ comparisons ∧ (m.get? op.text).isSome

/-- All operators of a statement are such as its form allows. Statements without operators are
always supported. -/
def Statement.Supported (m : Mnemonics) : Statement → Prop
  | .assign _ _ rest => ∀ pair ∈ rest, m.Supports pair.1
  | .openConditional _ test => m.SupportsTest test.op
  | .openLoop _ _ _ test step => (∀ s ∈ step, m.Supports s.op) ∧ m.SupportsTest test.op
  | _ => True

/-- An operator has an instruction exactly if it is supported, and then it is that of
`combineInstr`. The converse is `computeInstr_of_supports`. -/
theorem computeInstr_eq_ok {m : Mnemonics} {dest left right : String} {op : Token} {i : Instr}
    (h : computeInstr m dest left op right = .ok i) :
    m.Supports op ∧ i = combineInstr m dest left op right := by
  unfold computeInstr at h
  unfold Mnemonics.Supports combineInstr operationWord
  split at h
  · rename_i hsensor
    cases h
    exact ⟨Or.inl hsensor, by rw [if_pos hsensor]⟩
  · rename_i hsensor
    split at h
    · rename_i word hword
      cases h
      exact ⟨Or.inr (by rw [hword]; rfl), by rw [if_neg hsensor, hword]; rfl⟩
    · cases h

/-- A comparison that has a condition word is one that a test may use, and the word is the one of
the table. -/
theorem conditionWord_eq_ok {m : Mnemonics} {op : Token} {word : String}
    (h : conditionWord m op = .ok word) : m.SupportsTest op ∧ word = operationWord m op := by
  unfold conditionWord Token.requireOperator at h
  unfold Mnemonics.SupportsTest operationWord
  -- The three conditions are tried in the order of the definition, and each that fails is an
  -- error.
  by_cases hkind : op.kind = .operator
  · cases hword : m.get? op.text with
    | none => simp [hkind, hword, bind, Except.bind, throw, throwThe, MonadExceptOf.throw] at h
    | some found =>
      by_cases hcompare : op.text ∈ comparisons
      · simp [hkind, hword, hcompare, bind, Except.bind, pure, Except.pure] at h
        exact ⟨⟨hkind, hcompare, rfl⟩, h.symm⟩
      · simp [hkind, hword, hcompare, bind, Except.bind, throw, throwThe, MonadExceptOf.throw]
          at h
  · simp [hkind, bind, Except.bind] at h

/-- A chain without an error has supported operators only, and its instructions are those of
`combineAll`. The induction is on the chain, with any operand to start from. -/
theorem chainInstrs_eq_none {m : Mnemonics} {dest : String} :
    ∀ {left : String} {rest : List (Token × String)}, (chainInstrs m dest left rest).2 = none →
      (∀ pair ∈ rest, m.Supports pair.1) ∧
        (chainInstrs m dest left rest).1 = combineAll m dest left rest := by
  intro left rest
  induction rest generalizing left with
  | nil => intro _; exact ⟨by simp, rfl⟩
  | cons pair rest ih =>
    obtain ⟨op, right⟩ := pair
    intro h
    unfold chainInstrs at h ⊢
    cases hinstr : computeInstr m dest left op right with
    -- An operator that is refused would be the error of the chain.
    | error e => simp [hinstr] at h
    | ok instr =>
      simp only [hinstr] at h ⊢
      obtain ⟨supported, rfl⟩ := computeInstr_eq_ok hinstr
      obtain ⟨others, hcode⟩ := ih h
      refine ⟨?_, by rw [hcode, combineAll]⟩
      intro pair hpair
      rcases List.mem_cons.mp hpair with rfl | hpair
      · exact supported
      · exact others pair hpair

/-- The step of a loop has an instruction exactly if its operator is supported. Nothing is asked
of a step that is not written out. -/
theorem stepInstr_eq_ok {m : Mnemonics} {counter : String} {step : Option Step} {i : Instr}
    (h : stepInstr m counter step = .ok i) :
    (∀ s ∈ step, m.Supports s.op) ∧ i = advanceInstr m counter step := by
  cases step with
  | none =>
    cases h
    exact ⟨by simp, rfl⟩
  | some step =>
    obtain ⟨supported, rfl⟩ := computeInstr_eq_ok h
    exact ⟨by simpa using supported, rfl⟩

namespace Generator

/-! ### What the generator does with a statement that it accepts -/

/-- The stack of waiting jumps for a kind of block. With this both kinds can be spoken of in one
statement. -/
def stack (g : Generator) : Block → List PendingJump
  | .conditional => g.conditionals
  | .loop => g.loops

/-- An assignment that is accepted adds its code and does nothing else: no stack and no notice
changes. -/
theorem add_assign {m : Mnemonics} {g after : Generator} {dest first : String}
    {rest : List (Token × String)} (h : g.add m (.assign dest first rest) = (after, none)) :
    (Statement.assign dest first rest).Supported m ∧
      after = g.append ((Statement.assign dest first rest).code m g.code.length none) := by
  simp only [add, Prod.mk.injEq] at h
  obtain ⟨hcode, herror⟩ := h
  unfold assignInstrs at hcode herror
  cases rest with
  | nil => exact ⟨by simp [Statement.Supported], hcode.symm⟩
  | cons pair rest =>
    obtain ⟨supported, hchain⟩ := chainInstrs_eq_none herror
    rw [← hcode]
    refine ⟨supported, ?_⟩
    simp only [List.isEmpty_cons, Bool.false_eq_true, if_false]
    rw [hchain]
    rfl

/-- A statement that is no end of a block and is accepted adds its code, and tells at most that it
is ignored. Ignored lines have no code. -/
theorem add_plain {m : Mnemonics} {g after : Generator} {s : Statement} (hopens : s.opens = none)
    (hcloses : s.closes = none) (h : g.add m s = (after, none)) :
    s.Supported m ∧ after.code = g.code ++ s.code m g.code.length none ∧
      after.stack = g.stack ∧
      (after.notices = g.notices ∨ ∃ line words,
        after.notices = g.notices ++ [.ignored line words]) := by
  cases s with
  | ignored line words =>
    cases h
    exact ⟨trivial, by simp [Statement.code, note], rfl, Or.inr ⟨line, words, rfl⟩⟩
  | assign dest first rest =>
    obtain ⟨supported, rfl⟩ := add_assign h
    exact ⟨supported, rfl, rfl, Or.inl rfl⟩
  | print value device =>
    cases h
    exact ⟨trivial, rfl, rfl, Or.inl rfl⟩
  | openConditional line test => cases hopens
  | openLoop line counter start test step => cases hopens
  | closeConditional line => cases hcloses
  | closeLoop line => cases hcloses

/-- A generator after an opener of the kind `b`: its code is there with the jump out of the block
unset, and the place of that jump is on the stack of the kind. The other stack and the notices are
as before. -/
structure Opened (m : Mnemonics) (g : Generator) (s : Statement) (b : Block) (after : Generator) :
    Prop where
  code : after.code = g.code ++ s.code m g.code.length none
  stack_self : after.stack b = ⟨g.code.length + b.exitOffset, b, s.openingLine⟩ :: g.stack b
  stack_other : ∀ other, other ≠ b → after.stack other = g.stack other
  notices : after.notices = g.notices

/-- An opener that is accepted is supported and opens a block. Its place on the stack comes from
the length of the code before it. -/
theorem add_opener {m : Mnemonics} {g after : Generator} {s : Statement} {b : Block}
    (hopens : s.opens = some b) (h : g.add m s = (after, none)) :
    s.Supported m ∧ Opened m g s b after := by
  cases s with
  | openConditional line test =>
    cases hopens
    simp only [add, Generator.openConditional] at h
    split at h
    · simp at h
    · rename_i word hword
      obtain ⟨supported, rfl⟩ := conditionWord_eq_ok hword
      cases h
      refine ⟨supported, ⟨rfl, rfl, ?_, rfl⟩⟩
      rintro (_ | _) hne
      · exact absurd rfl hne
      · rfl
  | openLoop line counter start test step =>
    cases hopens
    simp only [add, Generator.openLoop, loopInstrs] at h
    cases hstep : stepInstr m counter step with
    | error e => simp [hstep] at h
    | ok stepping =>
      cases hword : conditionWord m test.op with
      | error e => simp [hstep, hword] at h
      | ok word =>
        obtain ⟨stepSupported, rfl⟩ := stepInstr_eq_ok hstep
        obtain ⟨testSupported, rfl⟩ := conditionWord_eq_ok hword
        simp only [hstep, hword] at h
        cases h
        refine ⟨⟨stepSupported, testSupported⟩, ⟨rfl, rfl, ?_, rfl⟩⟩
        rintro (_ | _) hne
        · rfl
        · exact absurd rfl hne
  | _ => cases hopens

/-- A generator after a closer of the kind `b` that took `jump` off the stack: the target of the
jump is the address behind the closer, and the code of the closer is there. Where the block starts
is not on the stack, so the code is given for every start that fits the place of the jump. -/
structure Closed (m : Mnemonics) (g : Generator) (s : Statement) (b : Block) (jump : PendingJump)
    (after : Generator) : Prop where
  code : ∀ base, jump.index = base + b.exitOffset →
    after.code = g.code.modify jump.index (Instr.withTarget (g.code.length + b.closerSize)) ++
      s.code m g.code.length (some base)
  stack_self : g.stack b = jump :: after.stack b
  stack_other : ∀ other, other ≠ b → after.stack other = g.stack other
  notices : after.notices =
    g.notices ++ [.patched jump.index (g.code.length + b.closerSize) jump.block jump.line]

/-- A closer that is accepted is supported and closes the latest block of its kind, which is the
one on top of the stack. -/
theorem add_closer {m : Mnemonics} {g after : Generator} {s : Statement} {b : Block}
    (hcloses : s.closes = some b) (h : g.add m s = (after, none)) :
    s.Supported m ∧ ∃ jump, Closed m g s b jump after := by
  cases s with
  | closeConditional line =>
    cases hcloses
    simp only [add, Generator.closeConditional] at h
    split at h
    · simp at h
    · rename_i jump rest top
      cases h
      refine ⟨trivial, jump, ⟨fun base _ => ?_, top, ?_, rfl⟩⟩
      · rw [Statement.code, List.append_nil]
        rfl
      · rintro (_ | _) hne
        · exact absurd rfl hne
        · rfl
  | closeLoop line =>
    cases hcloses
    simp only [add, Generator.closeLoop] at h
    split at h
    · simp at h
    · rename_i jump rest top
      cases h
      refine ⟨trivial, jump, ⟨fun base hbase => ?_, top, ?_, rfl⟩⟩
      · -- The jump back is aimed from the jump out of the block, two instructions behind the
        -- step.
        have back : (jump.index : Int) - 2 = ((base + 2 : Nat) : Int) := by
          rw [hbase, Block.exitOffset]
          omega
        simp only [append, patch, note, Statement.code, Option.map_some, Instr.jumpTo?_some, back]
        rfl
      · rintro (_ | _) hne
        · rfl
        · exact absurd rfl hne
  | _ => cases hcloses

/-! ### Whole programs -/

/-- Adding statements to `g` one after the other, all of them accepted, gives `after`. Proofs
about accepted programs are inductions on this. -/
inductive Adds (m : Mnemonics) : Generator → List Statement → Generator → Prop where
  | nil (g : Generator) : Adds m g [] g
  | cons {g mid after : Generator} {s : Statement} {ss : List Statement}
      (head : g.add m s = (mid, none)) (tail : Adds m mid ss after) : Adds m g (s :: ss) after

/-- Adding statements in two parts: the generator between them is the one that the first part
leads to. -/
theorem Adds.split {m : Mnemonics} {g after : Generator} {xs ys : List Statement}
    (h : Adds m g (xs ++ ys) after) : ∃ mid, Adds m g xs mid ∧ Adds m mid ys after := by
  induction xs generalizing g with
  | nil => exact ⟨g, .nil g, h⟩
  | cons s xs ih =>
    cases h with
    | cons head tail =>
      obtain ⟨mid, first, second⟩ := ih tail
      exact ⟨mid, .cons head first, second⟩

/-- Lists of tokens that are all accepted have been read as statements, and these were added. From
here on tokens are not needed any more. -/
theorem adds_of_addAll {m : Mnemonics} {g after : Generator} {statements : List (List Token)}
    (h : g.addAll m statements = (after, none)) :
    ∃ ss, statements.mapM Statement.ofTokens = .ok ss ∧ Adds m g ss after := by
  induction statements generalizing g with
  | nil =>
    cases h
    exact ⟨[], rfl, .nil _⟩
  | cons tokens rest ih =>
    unfold addAll addTokens at h
    cases hs : Statement.ofTokens tokens with
    | error e => simp [hs] at h
    | ok s =>
      simp only [hs] at h
      cases hstep : g.add m s with
      | mk reached error =>
        cases error with
        | some e => simp [hstep] at h
        | none =>
          simp only [hstep] at h
          obtain ⟨ss, hss, tail⟩ := ih h
          exact ⟨s :: ss,
            by simp [List.mapM_cons, hs, hss, bind, Except.bind, pure, Except.pure],
            .cons hstep tail⟩

/-- Only the empty list of waiting jumps has no earliest one. At the end of a program this means
that both stacks are empty. -/
theorem earliest?_eq_none {jumps : List PendingJump} (h : earliest? jumps = none) :
    jumps = [] := by
  cases jumps with
  | nil => rfl
  | cons jump rest =>
    unfold earliest? at h
    split at h
    · split at h <;> cases h
    · cases h

/-- A program that is accepted has been read as statements. They were all added, no jump was left
waiting, and the end of the program was put behind them. -/
theorem adds_of_generate {m : Mnemonics} {statements : List (List Token)}
    (h : (generate m {} statements).2 = none) :
    ∃ ss g, statements.mapM Statement.ofTokens = .ok ss ∧ Adds m {} ss g ∧
      (∀ b, g.stack b = []) ∧ (generate m {} statements).1 = g.append [.plain .halt []] := by
  unfold generate at h ⊢
  cases hall : (reset {}).addAll m statements with
  | mk reached error =>
    cases error with
    | some e => simp [hall] at h
    | none =>
      simp only [hall] at h ⊢
      obtain ⟨ss, hss, adds⟩ := adds_of_addAll hall
      unfold finish at h ⊢
      -- A jump that still waits would have been the error.
      cases hopen : earliest? (reached.conditionals ++ reached.loops) with
      | some jump => simp [hopen] at h
      | none =>
        obtain ⟨hconditionals, hloops⟩ := List.append_eq_nil_iff.mp (earliest?_eq_none hopen)
        refine ⟨ss, reached, hss, adds, fun b => ?_, rfl⟩
        cases b with
        | conditional => exact hconditionals
        | loop => exact hloops

end Generator

end Tickscript
