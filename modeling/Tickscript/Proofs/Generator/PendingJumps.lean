import Tickscript.Generator

/-!
# `Tickscript.Proofs.Generator.PendingJumps`: the stacks and the unset targets

The generator keeps a stack of waiting jumps for each kind of block, and `patch` trusts the index
it finds there: it overwrites the target of whatever instruction stands at that place, and the
closer of a loop jumps back to `index - 2` without looking. So everything rests on one invariant,
`Coherent`: the stacks hold exactly the places of the unset targets, and around the place of a
waiting loop stands the header that a loop leaves.

`Move` says once what the code of one statement can do to a generator, also when the statement is
refused halfway: it adds instructions that need no patching, it opens a block, or it closes the
latest block of one kind. `add_move` is the only proof that looks at the statements; that a move
keeps `Coherent` no longer mentions them.

`Reached` covers every history of one generator: single statements and whole programs in any
order, refused ones included, and the states in the middle of a program. `Reached.coherent` is the
invariant over such a history. `Coherent.patchesOnce` is the frame condition: a statement changes
at most one instruction that was there before, and only by giving a target to a jump that had
none.
-/

set_option autoImplicit false

namespace Tickscript

/-- A jump whose target is not set. Instructions of other kinds have no target either, but they do
not need one, so the opcode is part of the condition. -/
def Instr.isUnset (i : Instr) : Prop :=
  i.opcode = .jump ∧ i.target = none

/-- Unset targets can be told apart by looking, so they can be counted in a program that is
given. -/
instance (i : Instr) : Decidable i.isUnset :=
  inferInstanceAs (Decidable (_ ∧ _))

/-- Sets the target of an instruction. This is what the generator does to a waiting jump, whatever
stands at its place. -/
def Instr.withTarget (target : Nat) (i : Instr) : Instr :=
  { i with target := some (target : Int) }

/-- The jump that an opener leaves for its closer waits for a target. -/
@[simp] theorem Instr.isUnset_pendingJump (args : List String) :
    (Instr.pendingJump args).isUnset :=
  ⟨rfl, rfl⟩

/-- A jump that is made with its target does not wait. -/
@[simp] theorem Instr.not_isUnset_jumpTo (target : Int) (args : List String) :
    ¬ (Instr.jumpTo target args).isUnset := by
  simp [Instr.isUnset, Instr.jumpTo]

/-- An instruction that was given a target does not wait any longer, so no place is patched
twice. -/
@[simp] theorem Instr.not_isUnset_withTarget (target : Nat) (i : Instr) :
    ¬ (i.withTarget target).isUnset := by
  simp [Instr.isUnset, Instr.withTarget]

/-- An instruction that is no jump has nothing to patch, even though it has no target. -/
theorem Instr.not_isUnset_plain {opcode : Opcode} (args : List String) (h : opcode ≠ .jump) :
    ¬ (Instr.plain opcode args).isUnset := by
  simp [Instr.isUnset, Instr.plain, h]

/-- The instruction of an operator is no jump, whatever the table of operations says. The table
gives only the word of an `op`. -/
theorem opcode_of_computeInstr {m : Mnemonics} {dest left right : String} {op : Token} {i : Instr}
    (h : computeInstr m dest left op right = .ok i) : i.opcode = .op ∨ i.opcode = .sensor := by
  unfold computeInstr at h
  split at h
  · cases h
    exact Or.inr rfl
  · split at h
    · cases h
      exact Or.inl rfl
    · cases h

/-- The instruction that steps a loop is an operation or reads a sensor. It stands two places
before the waiting jump of the loop, and must not be taken for one. -/
theorem opcode_of_stepInstr {m : Mnemonics} {counter : String} {step : Option Step} {i : Instr}
    (h : stepInstr m counter step = .ok i) : i.opcode = .op ∨ i.opcode = .sensor := by
  cases step with
  | none =>
    cases h
    exact Or.inl rfl
  | some step => exact opcode_of_computeInstr h

/-- An operation or a sensor read has nothing to patch. This is the form in which the step of a
loop comes up. -/
theorem Instr.not_isUnset_of_opcode {i : Instr} (h : i.opcode = .op ∨ i.opcode = .sensor) :
    ¬ i.isUnset := by
  rcases h with h | h <;> simp [Instr.isUnset, h]

/-- A chain of operators leaves nothing to patch, also if it ends at an operator that is not
supported. The instructions before that operator stay in the code. -/
theorem not_isUnset_of_mem_chainInstrs {m : Mnemonics} {dest : String} :
    ∀ {left : String} {rest : List (Token × String)} {i : Instr},
      i ∈ (chainInstrs m dest left rest).1 → ¬ i.isUnset := by
  intro left rest
  induction rest generalizing left with
  | nil =>
    intro i hi
    simp [chainInstrs] at hi
  | cons pair rest ih =>
    obtain ⟨op, right⟩ := pair
    intro i hi
    unfold chainInstrs at hi
    split at hi
    · -- The chain ends at an operator that is refused, and leaves nothing from there on.
      simp at hi
    · rename_i instr hinstr
      rcases List.mem_cons.mp hi with rfl | hi
      · exact Instr.not_isUnset_of_opcode (opcode_of_computeInstr hinstr)
      · exact ih hi

/-- An assignment leaves nothing to patch, be it a single operand or a chain. -/
theorem not_isUnset_of_mem_assignInstrs {m : Mnemonics} {dest first : String}
    {rest : List (Token × String)} {i : Instr} (hi : i ∈ (assignInstrs m dest first rest).1) :
    ¬ i.isUnset := by
  unfold assignInstrs at hi
  split at hi
  · rw [List.mem_singleton.mp hi]
    exact Instr.not_isUnset_plain _ (by decide)
  · exact not_isUnset_of_mem_chainInstrs hi

namespace Generator

/-! ### What one statement can do -/

/-- The two instructions that open a conditional at the address `base`: a jump into the block if
the test holds, and behind it the jump out of the block, which waits. -/
def conditionalHeader (base : Nat) (word left right : String) : List Instr :=
  [.jumpTo (base + 2) [word, left, right], .pendingJump [always]]

/-- The five instructions that open a loop at the address `base`. Its jump out of the block is the
last one, four places behind the first. -/
def loopHeader (base : Nat) (counter start : String) (stepping : Instr)
    (word left right : String) : List Instr :=
  [.plain .set [counter, start], .jumpTo (base + 3) [always], stepping,
    .plain .op [word, loopFlag, left, right], .pendingJump ["equal", loopFlag, "false"]]

/-- What making the code of one statement can do to a generator. Notices are left open: nothing in
the generator reads them. Each way to open or close a block says what happens to the code and to
its own stack; the other stack is not touched. -/
inductive Move (g : Generator) : Generator → Prop where
  /-- Instructions are added that need no patching. A statement that is refused does this too. -/
  | grow (instrs : List Instr) (notices : List Notice) (settled : ∀ i ∈ instrs, ¬ i.isUnset) :
      Move g { g with code := g.code ++ instrs, notices }
  | openConditional (word left right : String) (line : Int) :
      Move g { g with
        code := g.code ++ conditionalHeader g.code.length word left right
        conditionals := ⟨g.code.length + 1, .conditional, line⟩ :: g.conditionals }
  | closeConditional (jump : PendingJump) (rest : List PendingJump) (notices : List Notice)
      (top : g.conditionals = jump :: rest) :
      Move g { g with
        code := g.code.modify jump.index (Instr.withTarget g.code.length)
        conditionals := rest
        notices }
  | openLoop (counter start : String) (stepping : Instr) (word left right : String) (line : Int)
      (step : stepping.opcode = .op ∨ stepping.opcode = .sensor) :
      Move g { g with
        code := g.code ++ loopHeader g.code.length counter start stepping word left right
        loops := ⟨g.code.length + 4, .loop, line⟩ :: g.loops }
  | closeLoop (jump : PendingJump) (rest : List PendingJump) (notices : List Notice)
      (top : g.loops = jump :: rest) :
      Move g { g with
        code := g.code.modify jump.index (Instr.withTarget (g.code.length + 1)) ++
          [.jumpTo ((jump.index : Int) - 2) [always]]
        loops := rest
        notices }

/-- A generator that is left alone has made a move. This is what a statement does that is refused
before any code is made. -/
theorem Move.stay (g : Generator) : Move g g := by
  have h := Move.grow (g := g) [] g.notices (by simp)
  rwa [List.append_nil] at h

/-- A notice alone is a move. An ignored line gives one and does nothing else. -/
theorem Move.note (g : Generator) (notice : Notice) : Move g (g.note notice) := by
  have h := Move.grow (g := g) [] (g.notices ++ [notice]) (by simp)
  rwa [List.append_nil] at h

/-- Adding settled instructions is a move. Assignments and prints do this, and loops that are
refused. -/
theorem Move.append (g : Generator) {instrs : List Instr} (settled : ∀ i ∈ instrs, ¬ i.isUnset) :
    Move g (g.append instrs) :=
  Move.grow instrs g.notices settled

/-- Opening a conditional is a move; a wrong operator is refused before any code is made. -/
theorem openConditional_move (m : Mnemonics) (g : Generator) (line : Int) (test : Test) :
    Move g (g.openConditional m line test).1 := by
  unfold Generator.openConditional
  split
  · exact Move.stay g
  · exact Move.openConditional _ _ _ line

/-- Closing a conditional is a move. With an empty stack the generator refuses it and stays as it
is. -/
theorem closeConditional_move (g : Generator) (line : Int) :
    Move g (g.closeConditional line).1 := by
  unfold Generator.closeConditional
  split
  · exact Move.stay g
  · rename_i jump rest top
    exact Move.closeConditional jump rest _ top

/-- Opening a loop is a move. An operator that is refused leaves the first two or three
instructions of the header, and none of these waits for a target. -/
theorem openLoop_move (m : Mnemonics) (g : Generator) (line : Int) (counter start : String)
    (test : Test) (step : Option Step) :
    Move g (g.openLoop m line counter start test step).1 := by
  have entry : ∀ i ∈ [Instr.plain .set [counter, start], .jumpTo (g.code.length + 3) [always]],
      ¬ i.isUnset := by
    simp [Instr.not_isUnset_plain]
  unfold Generator.openLoop loopInstrs
  -- The step is looked up before the test, and either may be refused.
  cases hstep : stepInstr m counter step with
  | error e => exact Move.append g entry
  | ok stepping =>
    have opcode := opcode_of_stepInstr hstep
    cases hword : conditionWord m test.op with
    | error e =>
      refine Move.append g fun i hi => ?_
      rcases List.mem_append.mp hi with hi | hi
      · exact entry i hi
      · rw [List.mem_singleton.mp hi]
        exact Instr.not_isUnset_of_opcode opcode
    | ok word => exact Move.openLoop counter start stepping word test.left test.right line opcode

/-- Closing a loop is a move. With an empty stack the generator refuses it and stays as it is. -/
theorem closeLoop_move (g : Generator) (line : Int) : Move g (g.closeLoop line).1 := by
  unfold Generator.closeLoop
  split
  · exact Move.stay g
  · rename_i jump rest top
    exact Move.closeLoop jump rest _ top

/-- Making the code of a statement is a move, whether it succeeds or not. This is the only place
where all forms of statements are gone through. -/
theorem add_move (m : Mnemonics) (g : Generator) (s : Statement) : Move g (g.add m s).1 := by
  cases s with
  | ignored line words => exact Move.note g _
  | assign dest first rest => exact Move.append g fun i hi => not_isUnset_of_mem_assignInstrs hi
  | openConditional line test => exact openConditional_move m g line test
  | closeConditional line => exact closeConditional_move g line
  | openLoop line counter start test step => exact openLoop_move m g line counter start test step
  | closeLoop line => exact closeLoop_move g line
  | print value device =>
    refine Move.append g ?_
    simp [Instr.not_isUnset_plain]

/-- Reading the tokens of a statement and making its code is a move. Tokens that cannot be read
leave the generator alone. -/
theorem addTokens_move (m : Mnemonics) (g : Generator) (tokens : List Token) :
    Move g (g.addTokens m tokens).1 := by
  unfold addTokens
  split
  · exact add_move m g _
  · exact Move.stay g

/-! ### The invariant -/

/-- A jump at this place in the code has no target. Places behind the end of the code have no
instruction and do not count. -/
def UnsetAt (code : List Instr) (i : Nat) : Prop :=
  ∃ instr, code[i]? = some instr ∧ instr.isUnset

/-- The places that wait for a target, as the two stacks hold them. Conditionals come first, so
this is not the order of the code. -/
def waiting (g : Generator) : List Nat :=
  (g.conditionals ++ g.loops).map (·.index)

/-- Around the place of a waiting loop stands the whole header of the loop: its first instruction
sets the counter, the second skips the step, then come the step, the test and the jump out of the
loop.

The closer of a loop jumps back to two places before its entry, so it needs the step to be
there. -/
structure HeaderAround (code : List Instr) (i : Nat) : Prop where
  four_le : 4 ≤ i
  exit_jump : code[i]? = some (.pendingJump ["equal", loopFlag, "false"])
  test : ∃ word left right, code[i - 1]? = some (.plain .op [word, loopFlag, left, right])
  step : ∃ instr, code[i - 2]? = some instr ∧ (instr.opcode = .op ∨ instr.opcode = .sensor)
  entry : code[i - 3]? = some (.jumpTo ((i : Int) - 1) [always])
  start : ∃ counter value, code[i - 4]? = some (.plain .set [counter, value])

/-- The stacks hold exactly the places of the unset targets, the latest place first, and what
stands at these places is what the closers take for granted:

- `unset_iff`: the waiting places are those of the unset targets;
- `conditionals_sorted`, `loops_sorted`: each stack has the latest place on top;
- `conditional`: at the place of a conditional stands its second jump;
- `loop`: around the place of a loop stands its header. -/
structure Coherent (g : Generator) : Prop where
  unset_iff : ∀ i, UnsetAt g.code i ↔ i ∈ g.waiting
  conditionals_sorted : (g.conditionals.map (·.index)).Pairwise (· > ·)
  loops_sorted : (g.loops.map (·.index)).Pairwise (· > ·)
  conditional : ∀ jump ∈ g.conditionals,
    jump.block = .conditional ∧ g.code[jump.index]? = some (.pendingJump [always])
  loop : ∀ jump ∈ g.loops, jump.block = .loop ∧ HeaderAround g.code jump.index

/-- A place waits on one of the two stacks. -/
theorem mem_waiting {g : Generator} {i : Nat} :
    i ∈ g.waiting ↔ i ∈ g.conditionals.map (·.index) ∨ i ∈ g.loops.map (·.index) := by
  simp [waiting]

/-- A waiting place lies in the code, because an unset target is there. -/
theorem Coherent.lt_length {g : Generator} (h : Coherent g) {i : Nat} (hi : i ∈ g.waiting) :
    i < g.code.length := by
  obtain ⟨instr, hinstr, -⟩ := (h.unset_iff i).mpr hi
  exact (List.getElem?_eq_some_iff.mp hinstr).1

/-- No place waits for a conditional and for a loop: the two kinds of jumps have different words.
The invariant keeps the words of both, which is what makes this provable. -/
theorem Coherent.disjoint {g : Generator} (h : Coherent g) {i : Nat}
    (hc : i ∈ g.conditionals.map (·.index)) (hl : i ∈ g.loops.map (·.index)) : False := by
  obtain ⟨jump, hjump, rfl⟩ := List.mem_map.mp hc
  obtain ⟨other, hother, heq⟩ := List.mem_map.mp hl
  have atConditional := (h.conditional jump hjump).2
  have atLoop := (h.loop other hother).2.exit_jump
  rw [heq, atConditional] at atLoop
  exact absurd atLoop (by decide)

/-- No place waits twice: not on one stack, which is sorted, and not on both. -/
theorem Coherent.nodup {g : Generator} (h : Coherent g) : g.waiting.Nodup := by
  unfold waiting
  rw [List.map_append, List.nodup_append]
  refine ⟨h.conditionals_sorted.imp Nat.ne_of_gt, h.loops_sorted.imp Nat.ne_of_gt, ?_⟩
  -- Across the two stacks it takes the words of the jumps to tell the places apart.
  intro i hi j hj hij
  subst hij
  exact h.disjoint hi hj

/-! ### What appending and patching do to the unset targets -/

/-- Appending keeps the unset targets and may add some behind them. Places in the new part are
counted from the end of the old one. -/
theorem unsetAt_append {code instrs : List Instr} {i : Nat} :
    UnsetAt (code ++ instrs) i ↔
      UnsetAt code i ∨ (code.length ≤ i ∧ UnsetAt instrs (i - code.length)) := by
  unfold UnsetAt
  by_cases hi : i < code.length
  · rw [List.getElem?_append_left hi]
    constructor
    · exact Or.inl
    · rintro (h | ⟨hle, -⟩)
      · exact h
      · omega
  · -- Behind the old code there is no old instruction, so only the new ones can be unset.
    rw [List.getElem?_append_right (by omega)]
    constructor
    · exact fun h => Or.inr ⟨by omega, h⟩
    · rintro (⟨instr, hinstr, -⟩ | ⟨-, h⟩)
      · exact absurd (List.getElem?_eq_some_iff.mp hinstr).1 hi
      · exact h

/-- Settled instructions add no unset target. All moves that open no block append only such
ones. -/
theorem unsetAt_append_settled {code instrs : List Instr} (settled : ∀ i ∈ instrs, ¬ i.isUnset)
    {i : Nat} : UnsetAt (code ++ instrs) i ↔ UnsetAt code i := by
  rw [unsetAt_append]
  constructor
  · rintro (h | ⟨-, instr, hinstr, hunset⟩)
    · exact h
    · exact absurd hunset (settled instr (List.mem_of_getElem? hinstr))
  · exact Or.inl

/-- Patching takes one place off the unset targets. All others keep what they had. -/
theorem unsetAt_modify {code : List Instr} {k target i : Nat} :
    UnsetAt (code.modify k (Instr.withTarget target)) i ↔ UnsetAt code i ∧ i ≠ k := by
  unfold UnsetAt
  by_cases hik : i = k
  · -- At the place itself a target is there now, whatever stood there before.
    subst hik
    simp only [List.getElem?_modify_eq, Option.map_eq_map, Option.map_eq_some_iff, ne_eq,
      not_true_eq_false, and_false, iff_false, not_exists, not_and]
    rintro instr ⟨original, -, rfl⟩
    exact Instr.not_isUnset_withTarget target original
  · rw [List.getElem?_modify_ne _ _ (Ne.symm hik)]
    simp [hik]

/-- Instructions that are not unset jumps stay when another instruction is patched. This is the
frame condition for a single patch. -/
theorem getElem?_modify_of_settled {code : List Instr} {k target j : Nat} {instr : Instr}
    (unset : UnsetAt code k) (hj : code[j]? = some instr) (settled : ¬ instr.isUnset) :
    (code.modify k (Instr.withTarget target))[j]? = some instr := by
  -- What is patched was unset, so it is another place.
  have hjk : k ≠ j := by
    rintro rfl
    obtain ⟨other, hother, hunset⟩ := unset
    rw [hj] at hother
    cases hother
    exact settled hunset
  rw [List.getElem?_modify_ne _ _ hjk, hj]

/-- What is found in the code is found there after appending. -/
theorem getElem?_append_of_some {code instrs : List Instr} {j : Nat} {instr : Instr}
    (hj : code[j]? = some instr) : (code ++ instrs)[j]? = some instr := by
  rw [List.getElem?_append_left (List.getElem?_eq_some_iff.mp hj).1, hj]

/-- A header stays around its place as long as its settled instructions and its jump do. Four of
the five instructions are settled, so only the jump out of the loop has to be looked at
separately. -/
theorem HeaderAround.keep {code after : List Instr} {i : Nat} (h : HeaderAround code i)
    (settled : ∀ (j : Nat) (instr : Instr),
      code[j]? = some instr → ¬ instr.isUnset → after[j]? = some instr)
    (exit_jump : after[i]? = some (.pendingJump ["equal", loopFlag, "false"])) :
    HeaderAround after i where
  four_le := h.four_le
  exit_jump := exit_jump
  test := by
    obtain ⟨word, left, right, htest⟩ := h.test
    exact ⟨word, left, right, settled _ _ htest (Instr.not_isUnset_plain _ (by decide))⟩
  step := by
    obtain ⟨instr, hstep, hopcode⟩ := h.step
    exact ⟨instr, settled _ _ hstep (Instr.not_isUnset_of_opcode hopcode), hopcode⟩
  entry := settled _ _ h.entry (Instr.not_isUnset_jumpTo _ _)
  start := by
    obtain ⟨counter, value, hstart⟩ := h.start
    exact ⟨counter, value, settled _ _ hstart (Instr.not_isUnset_plain _ (by decide))⟩

/-- Appending keeps a header, since it changes nothing that was there. -/
theorem HeaderAround.append {code : List Instr} {i : Nat} (h : HeaderAround code i)
    (instrs : List Instr) : HeaderAround (code ++ instrs) i :=
  h.keep (fun _ _ hj _ => getElem?_append_of_some hj) (getElem?_append_of_some h.exit_jump)

/-- Patching another place keeps a header. The place that is patched was unset, so it is none of
the settled instructions of the header, and it is not the jump either. -/
theorem HeaderAround.modify {code : List Instr} {i k target : Nat} (h : HeaderAround code i)
    (unset : UnsetAt code k) (hik : k ≠ i) :
    HeaderAround (code.modify k (Instr.withTarget target)) i :=
  h.keep (fun _ _ hj hsettled => getElem?_modify_of_settled unset hj hsettled)
    (by rw [List.getElem?_modify_ne _ _ hik]; exact h.exit_jump)

/-- The header that opening a loop writes stands around its last instruction, which is the place
that goes on the stack. -/
theorem headerAround_loopHeader (code : List Instr) (counter start : String) {stepping : Instr}
    (word left right : String) (step : stepping.opcode = .op ∨ stepping.opcode = .sensor) :
    HeaderAround (code ++ loopHeader code.length counter start stepping word left right)
      (code.length + 4) where
  four_le := by omega
  exit_jump := by simp [loopHeader]
  test := ⟨word, left, right, by simp [loopHeader]⟩
  step := ⟨stepping, by simp [loopHeader], step⟩
  -- The target of the second instruction is one place before the jump out of the loop.
  entry := by
    simp only [loopHeader,
      List.getElem?_append_right (by omega : code.length ≤ code.length + 4 - 3),
        show code.length + 4 - 3 - code.length = 1 by omega]
    have target : ((code.length : Int) + 3) = ((code.length + 4 : Nat) : Int) - 1 := by omega
    simp [target]
  start := ⟨counter, start, by simp [loopHeader]⟩

/-! ### Every move keeps the invariant -/

/-- A new generator waits for nothing. The notices are left open, because a generator that starts
a new program keeps those it had. -/
theorem coherent_empty (notices : List Notice) : Coherent { notices } where
  unset_iff i := by simp [UnsetAt, waiting]
  conditionals_sorted := List.Pairwise.nil
  loops_sorted := List.Pairwise.nil
  conditional jump hjump := by simp at hjump
  loop jump hjump := by simp at hjump

/-- Settled instructions keep the invariant. No stack changes, and what stood at the waiting
places still does. -/
theorem Coherent.grow {g : Generator} (h : Coherent g) {instrs : List Instr}
    (notices : List Notice) (settled : ∀ i ∈ instrs, ¬ i.isUnset) :
    Coherent { g with code := g.code ++ instrs, notices } where
  unset_iff i := (unsetAt_append_settled settled).trans (h.unset_iff i)
  conditionals_sorted := h.conditionals_sorted
  loops_sorted := h.loops_sorted
  conditional jump hjump :=
    ⟨(h.conditional jump hjump).1, getElem?_append_of_some (h.conditional jump hjump).2⟩
  loop jump hjump := ⟨(h.loop jump hjump).1, (h.loop jump hjump).2.append instrs⟩

/-- A new place comes after all places of a stack, so the stack stays sorted. The places of the
stack are in the code, and the new one is behind it. -/
theorem Coherent.sorted_cons {g : Generator} (h : Coherent g) {stack : List PendingJump} {i : Nat}
    (sorted : (stack.map (·.index)).Pairwise (· > ·))
    (sub : ∀ j ∈ stack.map (·.index), j ∈ g.waiting) (hi : g.code.length ≤ i) :
    (i :: stack.map (·.index)).Pairwise (· > ·) := by
  refine List.pairwise_cons.mpr ⟨fun j hj => ?_, sorted⟩
  have := h.lt_length (sub j hj)
  omega

/-- The unset targets after opening a block: one place more waits, and it is the only one that the
new instructions leave unset. The lemma is for either kind of block: the hypothesis `perm` leaves
open on which stack the new place goes. -/
theorem Coherent.unset_iff_open {g : Generator} (h : Coherent g) {instrs : List Instr} {k : Nat}
    (only : ∀ n, UnsetAt instrs n ↔ n = k) {places : List Nat}
    (perm : places.Perm ((g.code.length + k) :: g.waiting)) (i : Nat) :
    UnsetAt (g.code ++ instrs) i ↔ i ∈ places := by
  have place : (g.code.length ≤ i ∧ i - g.code.length = k) ↔ i = g.code.length + k := by omega
  rw [unsetAt_append, h.unset_iff, only, place, perm.mem_iff, List.mem_cons]
  exact or_comm

/-- Opening a conditional keeps the invariant: the second instruction of the header is its only
unset target, and that is the place that goes on the stack. -/
theorem Coherent.openConditional {g : Generator} (h : Coherent g) (word left right : String)
    (line : Int) :
    Coherent { g with
      code := g.code ++ conditionalHeader g.code.length word left right
      conditionals := ⟨g.code.length + 1, .conditional, line⟩ :: g.conditionals } where
  unset_iff := by
    refine h.unset_iff_open (k := 1) (fun n => ?_) (.refl _)
    rcases n with _ | _ | n <;> simp [UnsetAt, conditionalHeader]
  conditionals_sorted :=
    h.sorted_cons h.conditionals_sorted (fun _ hj => mem_waiting.mpr (Or.inl hj))
      (Nat.le_add_right _ _)
  loops_sorted := h.loops_sorted
  conditional jump hjump := by
    rcases List.mem_cons.mp hjump with rfl | hjump
    · exact ⟨rfl, by simp [conditionalHeader]⟩
    · exact ⟨(h.conditional jump hjump).1, getElem?_append_of_some (h.conditional jump hjump).2⟩
  loop jump hjump := ⟨(h.loop jump hjump).1, (h.loop jump hjump).2.append _⟩

/-- Opening a loop keeps the invariant: of the five instructions of the header only the last is
unset. The step is an operation or reads a sensor, so it is not a second one. -/
theorem Coherent.openLoop {g : Generator} (h : Coherent g) (counter start : String)
    {stepping : Instr} (word left right : String) (line : Int)
    (step : stepping.opcode = .op ∨ stepping.opcode = .sensor) :
    Coherent { g with
      code := g.code ++ loopHeader g.code.length counter start stepping word left right
      loops := ⟨g.code.length + 4, .loop, line⟩ :: g.loops } where
  unset_iff := by
    have settled := Instr.not_isUnset_of_opcode step
    refine h.unset_iff_open (k := 4) (fun n => ?_) (List.perm_middle.map _)
    rcases n with _ | _ | _ | _ | _ | n <;>
      simp [UnsetAt, loopHeader, Instr.not_isUnset_plain, settled]
  conditionals_sorted := h.conditionals_sorted
  loops_sorted :=
    h.sorted_cons h.loops_sorted (fun _ hj => mem_waiting.mpr (Or.inr hj)) (Nat.le_add_right _ _)
  conditional jump hjump :=
    ⟨(h.conditional jump hjump).1, getElem?_append_of_some (h.conditional jump hjump).2⟩
  loop jump hjump := by
    rcases List.mem_cons.mp hjump with rfl | hjump
    · exact ⟨rfl, headerAround_loopHeader g.code counter start word left right step⟩
    · exact ⟨(h.loop jump hjump).1, (h.loop jump hjump).2.append _⟩

/-- Closing a block of either kind keeps the invariant. Its place leaves the stacks and the unset
targets at once, and no entry that stays has the same place. As above, `perm` says which stack it
was taken from. -/
theorem Coherent.patch {g : Generator} (h : Coherent g) {jump : PendingJump} (target : Nat)
    {conditionals loops : List PendingJump} (notices : List Notice)
    (perm : g.waiting.Perm (jump.index :: (conditionals ++ loops).map (·.index)))
    (hconditionals : conditionals.Sublist g.conditionals) (hloops : loops.Sublist g.loops) :
    Coherent { g with
      code := g.code.modify jump.index (Instr.withTarget target)
      conditionals
      loops
      notices } := by
  obtain ⟨gone, -⟩ := List.nodup_cons.mp (perm.nodup_iff.mp h.nodup)
  have unset : UnsetAt g.code jump.index :=
    (h.unset_iff _).mpr (perm.mem_iff.mpr List.mem_cons_self)
  have apart : ∀ other ∈ conditionals ++ loops, jump.index ≠ other.index := by
    intro other hother heq
    rw [heq] at gone
    exact gone (List.mem_map_of_mem hother)
  refine ⟨fun i => ?_, h.conditionals_sorted.sublist (hconditionals.map _),
    h.loops_sorted.sublist (hloops.map _), fun other hother => ?_, fun other hother => ?_⟩
  · -- The place that is patched leaves both sides of the equivalence.
    rw [unsetAt_modify, h.unset_iff, perm.mem_iff, List.mem_cons]
    constructor
    · rintro ⟨heq | hi, hne⟩
      · exact absurd heq hne
      · exact hi
    · intro hi
      refine ⟨Or.inr hi, ?_⟩
      rintro rfl
      exact gone hi
  · obtain ⟨hblock, hjump⟩ := h.conditional other (hconditionals.subset hother)
    refine ⟨hblock, ?_⟩
    rw [List.getElem?_modify_ne _ _ (apart other (List.mem_append_left _ hother))]
    exact hjump
  · obtain ⟨hblock, header⟩ := h.loop other (hloops.subset hother)
    exact ⟨hblock, header.modify unset (apart other (List.mem_append_right _ hother))⟩

/-- Every move keeps the invariant. What a move is has been said once for all statements, so there
are five cases here and no statement in sight. -/
theorem Coherent.move {g after : Generator} (h : Coherent g) (step : Move g after) :
    Coherent after := by
  cases step with
  | grow instrs notices settled => exact h.grow notices settled
  | openConditional word left right line => exact h.openConditional word left right line
  | closeConditional jump rest notices top =>
    refine h.patch _ notices ?_ ?_ (.refl _)
    · rw [waiting, top]
      exact .refl _
    · rw [top]
      exact List.sublist_cons_self jump rest
  | openLoop counter start stepping word left right line step =>
    exact h.openLoop counter start word left right line step
  | closeLoop jump rest notices top =>
    -- The jump back comes behind the patched code and has its target from the start.
    refine (h.patch _ g.notices ?_ (.refl _) ?_).grow notices (by simp)
    · rw [waiting, top]
      exact List.perm_middle.map _
    · rw [top]
      exact List.sublist_cons_self jump rest

/-! ### What a statement does to the code that was there -/

/-- The second code is the first with more behind it, and at most one jump of the first that had
no target has got one. This is the frame condition of the generator, in terms of the code only. -/
inductive PatchesOnce (code : List Instr) : List Instr → Prop where
  | append (instrs : List Instr) : PatchesOnce code (code ++ instrs)
  | patch (i target : Nat) (instrs : List Instr) (unset : UnsetAt code i) :
      PatchesOnce code (code.modify i (Instr.withTarget target) ++ instrs)

/-- A move of a coherent generator patches at most one jump. Without the invariant the popped
index could be that of any instruction. -/
theorem Coherent.patchesOnce {g after : Generator} (h : Coherent g) (step : Move g after) :
    PatchesOnce g.code after.code := by
  cases step with
  | grow instrs => exact .append instrs
  | openConditional => exact .append _
  | openLoop => exact .append _
  | closeConditional jump rest notices top =>
    -- What the stack holds is an unset target: this is where the invariant is used.
    have unset : UnsetAt g.code jump.index :=
      (h.unset_iff _).mpr (mem_waiting.mpr (Or.inl (by simp [top])))
    have patched := PatchesOnce.patch jump.index g.code.length [] unset
    rwa [List.append_nil] at patched
  | closeLoop jump rest notices top =>
    exact .patch _ _ _ ((h.unset_iff _).mpr (mem_waiting.mpr (Or.inr (by simp [top]))))

/-- What is settled stays as it is: an instruction that is patched was unset before, and appending
changes nothing. -/
theorem PatchesOnce.keep {code after : List Instr} (h : PatchesOnce code after) {i : Nat}
    {instr : Instr} (hi : code[i]? = some instr) (settled : ¬ instr.isUnset) :
    after[i]? = some instr := by
  cases h with
  | append => exact getElem?_append_of_some hi
  | patch k target instrs unset =>
    exact getElem?_append_of_some (getElem?_modify_of_settled unset hi settled)

/-! ### Every history of a generator -/

/-- The generators that can be met: a new one, and what a statement or a whole program makes of
one that was met before, whether it is accepted or refused. `during` is a generator in the middle
of a whole program, when it has dealt with some of its statements. -/
inductive Reached (m : Mnemonics) : Generator → Prop where
  | fresh : Reached m {}
  | statement {g : Generator} (tokens : List Token) :
      Reached m g → Reached m (g.addTokens m tokens).1
  | during {g : Generator} (statements : List (List Token)) :
      Reached m g → Reached m (g.reset.addAll m statements).1
  | program {g : Generator} (statements : List (List Token)) :
      Reached m g → Reached m (g.generate m statements).1

/-- Dealing with statements one after the other keeps the invariant, up to the first refusal and
there too. The induction is on the statements, with any generator to start from. -/
theorem Coherent.addAll (m : Mnemonics) {g : Generator} (h : Coherent g)
    (statements : List (List Token)) : Coherent (g.addAll m statements).1 := by
  induction statements generalizing g with
  | nil => exact h
  | cons tokens rest ih =>
    have next := h.move (addTokens_move m g tokens)
    unfold Generator.addAll
    split
    · rename_i reached hreached
      rw [hreached] at next
      exact ih next
    · rename_i reached e hreached
      rw [hreached] at next
      exact next

/-- Ending a program keeps the invariant, also if a block is still open. In that case nothing is
added; otherwise the last instruction is, which is no jump. -/
theorem Coherent.finish {g : Generator} (h : Coherent g) : Coherent g.finish.1 := by
  unfold Generator.finish
  split
  · exact h
  · exact h.grow g.notices (by simp [Instr.not_isUnset_plain])

/-- Making the code of a whole program keeps the invariant; it starts from nothing. So this holds
for every generator, not only for one that was met before. -/
theorem coherent_generate (m : Mnemonics) (g : Generator) (statements : List (List Token)) :
    Coherent (g.generate m statements).1 := by
  have reached : Coherent (g.reset.addAll m statements).1 :=
    (coherent_empty g.notices).addAll m statements
  -- A program that was refused stops where `addAll` did; otherwise it is ended.
  unfold generate
  split
  · rename_i after hafter
    rw [hafter] at reached
    exact reached.finish
  · rename_i after e hafter
    rw [hafter] at reached
    exact reached

/-- The invariant holds after every history. The induction is on the history, and only a single
statement needs the induction hypothesis. -/
theorem Reached.coherent {m : Mnemonics} {g : Generator} (h : Reached m g) : Coherent g := by
  induction h with
  | fresh => exact coherent_empty []
  | statement tokens _ ih => exact ih.move (addTokens_move m _ tokens)
  -- A whole program starts from empty stacks and no code, whatever was left before.
  | during statements _ _ => exact (coherent_empty _).addAll m statements
  | program statements _ _ => exact coherent_generate m _ statements

/-- One statement after the other, each on what the one before has left, refused or not. Unlike
`addAll` this does not stop at a refusal. -/
def addEach (m : Mnemonics) (g : Generator) (calls : List (List Token)) : Generator :=
  calls.foldl (fun g tokens => (g.addTokens m tokens).1) g

/-- What is settled stays as it is through any number of statements. The invariant is carried
along, because it is what says that the next patch hits an unset jump. -/
theorem Coherent.keep_addEach (m : Mnemonics) {g : Generator} (h : Coherent g)
    (calls : List (List Token)) {i : Nat} {instr : Instr} (hi : g.code[i]? = some instr)
    (settled : ¬ instr.isUnset) : (g.addEach m calls).code[i]? = some instr := by
  induction calls generalizing g with
  | nil => exact hi
  | cons tokens rest ih =>
    have step := addTokens_move m g tokens
    exact ih (h.move step) ((h.patchesOnce step).keep hi settled)

/-- **The stacks are the unset targets, over every history.** Whatever statements and programs a
generator was given before, refused ones included: its stacks together hold the places of the
jumps without a target, each once, each stack the latest place first, and around each place stands
what the closer of its block relies on. The next statement, accepted or refused, only adds code
and gives a target to at most one jump that had none; and an instruction that is no unset jump
stays as it is through any number of further statements, so no target is set twice or changed. -/
theorem waiting_eq_unset_of_reached {m : Mnemonics} {g : Generator} (h : Reached m g) :
    Coherent g ∧ g.waiting.Nodup ∧
      (∀ tokens, PatchesOnce g.code (g.addTokens m tokens).1.code) ∧
      ∀ (calls : List (List Token)) (i : Nat) (instr : Instr), g.code[i]? = some instr →
        ¬ instr.isUnset → (g.addEach m calls).code[i]? = some instr := by
  have coherent := h.coherent
  refine ⟨coherent, coherent.nodup, fun tokens => ?_, fun calls i instr hi settled => ?_⟩
  · exact coherent.patchesOnce (addTokens_move m g tokens)
  · exact coherent.keep_addEach m calls hi settled

/-- A loop whose test is `i + 3` is refused after three instructions; the conditional that follows
waits at the place after its own first one. -/
theorem waiting_after_refused_loop :
    let refused := ({} : Generator).addTokens .standard
      [⟨.keyword, "for", 1⟩, ⟨.name, "i", 1⟩, ⟨.operator, "=", 1⟩, ⟨.value, "0", 1⟩,
        ⟨.name, "i", 1⟩, ⟨.operator, "+", 1⟩, ⟨.value, "3", 1⟩]
    let opened := refused.1.addTokens .standard
      [⟨.keyword, "if", 2⟩, ⟨.name, "a", 2⟩, ⟨.operator, "<", 2⟩, ⟨.name, "b", 2⟩]
    refused.2 = some (.unsupportedOperator "+" 1) ∧ opened.1.waiting = [4] ∧
      Coherent opened.1 :=
  ⟨by decide, by decide, (waiting_eq_unset_of_reached (.statement _ (.statement _ .fresh))).1⟩

end Generator

end Tickscript
