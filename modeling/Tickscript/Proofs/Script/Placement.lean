import Tickscript.Proofs.Generator.Layout
import Tickscript.Proofs.Script.Evaluation

/-!
# `Tickscript.Proofs.Script.Placement`: the code of a script

The code of a script at an address follows its structure: the code of a block is that of its
opener, of its body and of its closer, and the two ends know each other's addresses because the
size of the body is known. `makesCode` says that the generator makes this code from the statements
of the script. The jump that an opener leaves on its stack is the one that its closer finds there,
since the body takes away whatever it puts on the stacks.
-/

set_option autoImplicit false

namespace Tickscript

namespace Script

/-- How many instructions a script has. A conditional has two for its opener and none for its
closer, a loop has five and one. -/
def size : Script → Nat
  | .done => 0
  | .ignored _ _ rest => rest.size
  | .assign dest first chain rest => (Statement.assign dest first chain).size + rest.size
  | .print _ _ rest => 2 + rest.size
  | .conditional _ _ body _ rest => 2 + body.size + rest.size
  | .loop _ _ _ _ _ body _ rest => 5 + body.size + 1 + rest.size

/-- The code of a script at the address `a`. The ends of a block know each other's addresses
because the size of the body is known before its code. -/
def code (m : Mnemonics) : Nat → Script → List Instr
  | _, .done => []
  | a, .ignored _ _ rest => rest.code m a
  | a, .assign dest first chain rest =>
    let statement := Statement.assign dest first chain
    statement.code m a none ++ rest.code m (a + statement.size)
  | a, .print value device rest =>
    (Statement.print value device).code m a none ++ rest.code m (a + 2)
  | a, .conditional line test body _ rest =>
    let closer := a + 2 + body.size
    (Statement.openConditional line test).code m a (some closer) ++
      (body.code m (a + 2) ++ rest.code m closer)
  | a, .loop line counter start test step body closing rest =>
    let closer := a + 5 + body.size
    (Statement.openLoop line counter start test step).code m a (some closer) ++
      (body.code m (a + 5) ++
        ((Statement.closeLoop closing).code m closer (some a) ++ rest.code m (closer + 1)))

/-- The size of a script is the length of its code, wherever the code starts. -/
@[simp] theorem length_code (m : Mnemonics) (a : Nat) (script : Script) :
    (script.code m a).length = script.size := by
  induction script generalizing a with
  | done => rfl
  | ignored line words rest ih => exact ih a
  | assign dest first chain rest ih => simp [code, size, ih]
  | print value device rest ih => simp [code, size, ih, Statement.size]
  | conditional line test body closing rest ihBody ih =>
    simp [code, size, ihBody, ih, Statement.size]
    omega
  | loop line counter start test step body closing rest ihBody ih =>
    simp [code, size, ihBody, ih, Statement.size]
    omega

end Script

namespace Generator

/-- The generator `after` has the code of `g` and then `made`, and the stacks of `g`. The
statements that made this code are all supported. -/
structure Extends (m : Mnemonics) (g : Generator) (ss : List Statement) (made : List Instr)
    (after : Generator) : Prop where
  supported : ∀ s ∈ ss, s.Supported m
  code : after.code = g.code ++ made
  stack : after.stack = g.stack

/-- A statement that is no end of a block, and a script behind it. Such a statement has the same
code wherever it stands. -/
theorem Extends.plain {m : Mnemonics} {g mid after : Generator} {s : Statement}
    {ss : List Statement} {made : List Instr} (hopens : s.opens = none)
    (hcloses : s.closes = none) (hadd : g.add m s = (mid, none))
    (h : Extends m mid ss made after) :
    Extends m g (s :: ss) (s.code m g.code.length none ++ made) after := by
  obtain ⟨supported, hcode, hstack, -⟩ := add_plain hopens hcloses hadd
  refine ⟨List.forall_mem_cons.mpr ⟨supported, h.supported⟩, ?_, h.stack.trans hstack⟩
  rw [h.code, hcode, List.append_assoc]

/-- A whole block: the closer finds the jump of the opener, since the body leaves the stacks as
they were, and gives it its target. -/
theorem Extends.block {m : Mnemonics} {g opened inner after : Generator}
    {opener closer : Statement} {b : Block} {ss : List Statement} {made : List Instr}
    (hopens : opener.opens = some b) (hcloses : closer.closes = some b)
    (hopen : g.add m opener = (opened, none)) (body : Extends m opened ss made inner)
    (hclose : inner.add m closer = (after, none)) :
    let own := g.code.length
    let there := own + opener.size + made.length
    Extends m g (opener :: (ss ++ [closer]))
      (opener.code m own (some there) ++ (made ++ closer.code m there (some own))) after := by
  intro own there
  obtain ⟨openerSupported, hopened⟩ := add_opener hopens hopen
  obtain ⟨closerSupported, jump, closed⟩ := add_closer hcloses hclose
  -- The closer pops what the opener pushed: the stacks are the same before and after the body.
  have top := closed.stack_self
  rw [body.stack, hopened.stack_self] at top
  obtain ⟨rfl, hbelow⟩ := List.cons.inj top
  have length : inner.code.length = there := by
    simp [body.code, hopened.code, own, there]
    omega
  refine ⟨?_, ?_, ?_⟩
  · intro s hs
    simp only [List.mem_cons, List.mem_append, List.not_mem_nil, or_false] at hs
    rcases hs with rfl | hs | rfl
    · exact openerSupported
    · exact body.supported s hs
    · exact closerSupported
  · rw [closed.code own rfl, length, body.code, hopened.code, List.append_assoc,
      modify_append_append _ _ _ _ (by
        rw [Statement.length_code]
        exact Statement.exitOffset_lt_size hopens),
      Statement.modify_code hopens, List.append_assoc, List.append_assoc]
  · funext other
    by_cases hother : other = b
    · subst hother
      exact hbelow.symm
    · rw [closed.stack_other other hother, body.stack, hopened.stack_other other hother]

/-- Two parts, one behind the other. Each of them leaves the stacks as they were, so both do. -/
theorem Extends.append {m : Mnemonics} {g mid after : Generator} {xs ys : List Statement}
    {first second : List Instr} (h : Extends m g xs first mid)
    (h' : Extends m mid ys second after) :
    Extends m g (xs ++ ys) (first ++ second) after :=
  ⟨List.forall_mem_append.mpr ⟨h.supported, h'.supported⟩,
    by rw [h'.code, h.code, List.append_assoc], h'.stack.trans h.stack⟩

/-- The generator makes the code of a script, from whatever state it starts. The addresses are
counted from the code that is there. -/
def MakesCode (m : Mnemonics) (script : Script) : Prop :=
  ∀ {g after : Generator}, Adds m g script.statements after →
    Extends m g script.statements (script.code m g.code.length) after

/-- A block whose body is a script, and a script behind it. Conditionals and loops differ only in
the sizes of their ends. -/
theorem extends_of_block {m : Mnemonics} {g after : Generator} {opener closer : Statement}
    {b : Block} {body rest : Script} (hopens : opener.opens = some b)
    (hcloses : closer.closes = some b) (hbody : MakesCode m body) (hrest : MakesCode m rest)
    (h : Adds m g (opener :: (body.statements ++ closer :: rest.statements)) after) :
    let own := g.code.length
    let there := own + opener.size + body.size
    Extends m g (opener :: (body.statements ++ closer :: rest.statements))
      (opener.code m own (some there) ++ (body.code m (own + opener.size) ++
        (closer.code m there (some own) ++ rest.code m (there + closer.size)))) after := by
  intro own there
  cases h with
  | @cons _ opened _ _ _ hopen tail =>
    obtain ⟨inner, bodyAdds, tail⟩ := tail.split
    cases tail with
    | @cons _ closed _ _ _ hclose restAdds =>
      have block := Extends.block hopens hcloses hopen (hbody bodyAdds) hclose
      have hopened : opened.code.length = own + opener.size := by
        simp [(add_opener hopens hopen).2.code, own]
      have hclosed : closed.code.length = there + closer.size := by
        simp [block.code, own, there]
        omega
      have made := block.append (hrest restAdds)
      rw [hopened, hclosed, Script.length_code] at made
      simpa using made

/-- The generator makes the code of a script from its statements. By induction on the script, with
the blocks taken together in `extends_of_block`. -/
theorem makesCode (m : Mnemonics) (script : Script) : MakesCode m script := by
  -- The generator stays general: the body of a block starts where its opener has left one.
  induction script with
  | done =>
    intro g after h
    cases h
    exact ⟨by simp [Script.statements], by simp [Script.code], rfl⟩
  | ignored line words rest ih =>
    intro g after h
    cases h with
    | cons head tail =>
      have made := Extends.plain rfl rfl head (ih tail)
      cases head
      exact made
  | assign dest first chain rest ih =>
    intro g after h
    cases h with
    | cons head tail =>
      have made := Extends.plain rfl rfl head (ih tail)
      obtain ⟨-, rfl⟩ := add_assign head
      simpa [Script.code, Script.statements, append] using made
  | print value device rest ih =>
    intro g after h
    cases h with
    | cons head tail =>
      have made := Extends.plain rfl rfl head (ih tail)
      cases head
      simpa [Script.code, Script.statements, append] using made
  | conditional line test body closing rest ihBody ih =>
    intro g after h
    exact extends_of_block rfl rfl ihBody ih h
  | loop line counter start test step body closing rest ihBody ih =>
    intro g after h
    exact extends_of_block rfl rfl ihBody ih h

end Generator

end Tickscript
