import Tickscript.Proofs.Generator.Targets

/-!
# `Tickscript.Proofs.Generator.Landings`: where jumps land

A jump of a finished program goes to the start of a statement, or to the step or the test of a
loop (`Landing`). Which of these it is depends on how blocks cross; that it is one of them does
not (`Balanced.landing_of_target`).

A print makes two instructions, and the second one delivers what the first one has printed.
Nothing but a print makes either of them (`Statement.exists_print_of_mem_code`), and no landing is
the second of them (`Landing.ne_of_print`). So the two always stand side by side, and no jump
comes between them: this is what `Interlocked` says, and all that a run needs to know about the
prints of a program.
-/

set_option autoImplicit false

namespace Tickscript

/-! ### Addresses inside statements -/

/-- Every address before the end of the program belongs to a statement. The address is that of the
statement and an offset less than its size, so the two are found together. -/
theorem exists_statement_of_lt {ss : List Statement} {a : Nat} (h : a < address ss ss.length) :
    ∃ k s i, ss[k]? = some s ∧ i < s.size ∧ a = address ss k + i := by
  -- By induction on how many statements are looked at.
  have upTo : ∀ n ≤ ss.length, a < address ss n →
      ∃ k s i, ss[k]? = some s ∧ i < s.size ∧ a = address ss k + i := by
    intro n
    induction n with
    | zero => intro _ ha; exact absurd ha (Nat.not_lt_zero a)
    | succ n ih =>
      intro hn ha
      have hs : ss[n]? = some ss[n] := List.getElem?_eq_getElem hn
      rw [address_succ hs] at ha
      by_cases before : a < address ss n
      · exact ih (Nat.le_of_succ_le hn) before
      · exact ⟨n, ss[n], a - address ss n, hs, by omega, by omega⟩
  exact upTo ss.length (Nat.le_refl _) h

/-- An instruction of a layout belongs to the code of a statement, or it is the end of the
program. Proofs about all instructions of a finished program start here, and go on by cases over
statements. -/
theorem exists_statement_of_getElem?_layout {m : Mnemonics} {ss : List Statement}
    {a : Nat} {i : Instr} (hi : (layout m ss)[a]? = some i) :
    (∃ k s n, ss[k]? = some s ∧ n < s.size ∧ a = address ss k + n ∧
        (s.code m (address ss k) ((partner? (spans ss) k).map (address ss)))[n]? = some i) ∨
      i = .plain .halt [] := by
  have hlt := (List.getElem?_eq_some_iff.mp hi).1
  rw [layout, List.length_append, length_body, List.length_singleton] at hlt
  by_cases inside : a < address ss ss.length
  · obtain ⟨k, s, n, hs, hn, rfl⟩ := exists_statement_of_lt inside
    rw [getElem?_layout hs hn] at hi
    exact Or.inl ⟨k, s, n, hs, hn, rfl, hi⟩
  · -- What stands behind the body is the end of the program.
    have last : a = (body m ss).length := by
      rw [length_body]
      omega
    rw [last, layout, List.getElem?_concat_length] at hi
    cases hi
    exact Or.inr rfl

/-- The start of a statement is not in the middle of another one. Statements of size zero share
their start with the next one, which is why only the offset is determined and not the
statement. -/
theorem offset_eq_zero_of_address {ss : List Statement} {k n i : Nat} {s : Statement}
    (hs : ss[n]? = some s) (hi : i < s.size) (h : address ss k = address ss n + i) : i = 0 := by
  have next := address_succ hs
  rcases Nat.lt_or_ge n k with later | earlier
  · have : address ss (n + 1) ≤ address ss k := address_mono later
    omega
  · have : address ss k ≤ address ss n := address_mono earlier
    omega

/-! ### The two instructions of a print -/

/-- An instruction that computes a value: it has no target, and it neither prints nor delivers.
These are the instructions of a chain of operators, and the steps of loops. -/
def Instr.Computes (i : Instr) : Prop :=
  ∃ args, i = .plain .op args ∨ i = .plain .sensor args

/-- One operator is computed by one instruction: the operator that reads a property is a `sensor`,
and all others are an `op`. -/
theorem computes_combineInstr (m : Mnemonics) (dest left : String) (op : Token) (right : String) :
    (combineInstr m dest left op right).Computes := by
  unfold combineInstr
  split
  · exact ⟨_, Or.inr rfl⟩
  · exact ⟨_, Or.inl rfl⟩

/-- All instructions of a chain of operators compute. The induction is on the chain, with any
operand to start from, because each instruction takes up the result of the one before. -/
theorem computes_of_mem_combineAll {m : Mnemonics} {dest left : String}
    {rest : List (Token × String)} {i : Instr} (h : i ∈ combineAll m dest left rest) :
    i.Computes := by
  induction rest generalizing left with
  | nil => cases h
  | cons pair rest ih =>
    rcases List.mem_cons.mp h with rfl | h
    · exact computes_combineInstr m dest left pair.1 pair.2
    · exact ih h

/-- The step of a loop computes, be it written out in the source or the standard one, which counts
up by one. -/
theorem computes_advanceInstr (m : Mnemonics) (counter : String) (step : Option Step) :
    (advanceInstr m counter step).Computes := by
  cases step with
  | none => exact ⟨_, Or.inl rfl⟩
  | some step => exact computes_combineInstr m step.dest step.left step.op step.right

/-- Only prints make instructions that print or deliver. All others set a value, compute one or
jump, and this goes through the forms of statements to see it. -/
theorem Statement.exists_print_of_mem_code {m : Mnemonics} {s : Statement} {own : Nat}
    {partner : Option Nat} {i : Instr} (hi : i ∈ s.code m own partner)
    (hopcode : i.opcode = .print ∨ i.opcode = .printflush) :
    ∃ value device, s = .print value device := by
  -- What computes neither prints nor delivers, so it can be dismissed in each case below.
  have computed {P : Prop} (h : i.Computes) : P := by
    obtain ⟨args, rfl | rfl⟩ := h <;> simp [Instr.plain] at hopcode
  cases s with
  | print value device => exact ⟨value, device, rfl⟩
  | assign dest first rest =>
    simp only [Statement.code] at hi
    split at hi
    · rw [List.mem_singleton.mp hi] at hopcode
      simp [Instr.plain] at hopcode
    · exact computed (computes_of_mem_combineAll hi)
  | openLoop line counter start test step =>
    simp only [Statement.code, List.mem_cons, List.not_mem_nil, or_false] at hi
    rcases hi with rfl | rfl | rfl | rfl | rfl
    · simp [Instr.plain] at hopcode
    · simp [Instr.jumpTo] at hopcode
    · exact computed (computes_advanceInstr m counter step)
    · simp [Instr.plain] at hopcode
    · simp [Instr.jumpTo?] at hopcode
  | openConditional line test =>
    simp only [Statement.code, List.mem_cons, List.not_mem_nil, or_false] at hi
    rcases hi with rfl | rfl <;> simp [Instr.jumpTo, Instr.jumpTo?] at hopcode
  | closeLoop line =>
    rw [List.mem_singleton.mp hi] at hopcode
    simp [Instr.jumpTo?] at hopcode
  | ignored line words => cases hi
  | closeConditional line => cases hi

/-- An instruction of a layout that prints or delivers is one of the two that a print makes: the
first one prints and the second one delivers, with the arguments that the statement has. -/
theorem exists_print_of_getElem?_layout {m : Mnemonics} {ss : List Statement}
    {a : Nat} {i : Instr} (hi : (layout m ss)[a]? = some i)
    (hopcode : i.opcode = .print ∨ i.opcode = .printflush) :
    ∃ k value device, ss[k]? = some (.print value device) ∧
      ((a = address ss k ∧ i = .plain .print [value]) ∨
        (a = address ss k + 1 ∧ i = .plain .printflush [device])) := by
  rcases exists_statement_of_getElem?_layout hi with ⟨k, s, n, hs, hn, rfl, hcode⟩ | rfl
  · obtain ⟨value, device, rfl⟩ :=
      Statement.exists_print_of_mem_code (List.mem_of_getElem? hcode) hopcode
    refine ⟨k, value, device, hs, ?_⟩
    -- A print has two instructions, so the offset is zero or one.
    rcases n with _ | _ | n
    · cases hcode
      exact Or.inl ⟨rfl, rfl⟩
    · cases hcode
      exact Or.inr ⟨rfl, rfl⟩
    · simp only [Statement.size] at hn
      omega
  · simp [Instr.plain] at hopcode

/-! ### Landings -/

/-- Where a jump may land: at the start of a statement or behind the last one, or at the step or
the test of a loop. The end of the program is the start of what would stand behind the last
statement. -/
inductive Landing (ss : List Statement) : Nat → Prop where
  | start (k : Nat) : Landing ss (address ss k)
  | step {k : Nat} (loop : ss[k]?.bind Statement.opens = some .loop) :
      Landing ss (address ss k + 2)
  | test {k : Nat} (loop : ss[k]?.bind Statement.opens = some .loop) :
      Landing ss (address ss k + 3)

/-- A landing is not in the middle of a print. A start of a statement is not there because of
`offset_eq_zero_of_address`, and the step and the test of a loop belong to that loop. -/
theorem Landing.ne_of_print {ss : List Statement} {a k : Nat} (h : Landing ss a)
    {value device : String} (hs : ss[k]? = some (.print value device)) :
    a ≠ address ss k + 1 := by
  rintro rfl
  -- Inside a loop the address would belong to two statements.
  have apart : ∀ {n i : Nat}, ss[n]?.bind Statement.opens = some .loop → i < 5 →
      address ss n + i ≠ address ss k + 1 := by
    intro n i loop hi heq
    obtain ⟨s, hn, hopens⟩ := Option.bind_eq_some_iff.mp loop
    have hsize : s.size = 5 := by
      cases s with
      | openLoop line counter start test step => rfl
      | _ => cases hopens
    have nextLoop := address_succ hn
    have nextPrint := address_succ hs
    simp only [Statement.size] at nextPrint
    rcases Nat.lt_trichotomy n k with before | rfl | behind
    · have : address ss (n + 1) ≤ address ss k := address_mono before
      omega
    · rw [hs] at hn
      cases hn
      cases hopens
    · have : address ss (k + 1) ≤ address ss n := address_mono behind
      omega
  generalize htarget : address ss k + 1 = target at h
  cases h with
  | start n =>
    have zero := offset_eq_zero_of_address hs (by simp [Statement.size]) htarget.symm
    cases zero
  | step loop => exact apart loop (by decide) htarget.symm
  | test loop => exact apart loop (by decide) htarget.symm

/-- The target of a jump in the code of a statement, by the end of a block that the statement is.
A conditional jumps over its second jump or to its partner, a loop jumps to its test or behind its
partner, and the closer of a loop jumps to the step of its partner. -/
theorem Statement.target_cases {m : Mnemonics} {s : Statement} {own target : Nat}
    {partner : Option Nat} {i : Instr} (hi : i ∈ s.code m own partner)
    (htarget : i.target = some (target : Int)) :
    (s.opens = some .conditional ∧ (target = own + s.size ∨ partner = some target)) ∨
      (s.opens = some .loop ∧ (target = own + 3 ∨ partner.map (· + 1) = some target)) ∨
      (s.closes = some .loop ∧ partner.map (· + 2) = some target) := by
  -- Instructions without a target drop out; the others give their target away.
  have unset {P : Prop} {opcode : Opcode} {args : List String} (h : i = .plain opcode args) :
      P := by
    subst h
    cases htarget
  have known {n : Nat} {args : List String} (h : i = .jumpTo n args) : target = n := by
    subst h
    simp only [Instr.jumpTo, Option.some.injEq] at htarget
    omega
  have found {n : Option Nat} {args : List String} (h : i = .jumpTo? n args) :
      n = some target := by
    subst h
    obtain ⟨t, rfl, ht⟩ := Option.map_eq_some_iff.mp htarget
    rw [Int.ofNat.inj ht]
  have computed {P : Prop} (h : i.Computes) : P := by
    obtain ⟨args, h | h⟩ := h <;> exact unset h
  cases s with
  | assign dest first rest =>
    simp only [Statement.code] at hi
    split at hi
    · exact unset (List.mem_singleton.mp hi)
    · exact computed (computes_of_mem_combineAll hi)
  | openConditional line test =>
    simp only [Statement.code, List.mem_cons, List.not_mem_nil, or_false] at hi
    refine Or.inl ⟨rfl, ?_⟩
    rcases hi with hi | hi
    · exact Or.inl (known (n := own + 2) hi)
    · exact Or.inr (found hi)
  | openLoop line counter start test step =>
    simp only [Statement.code, List.mem_cons, List.not_mem_nil, or_false] at hi
    refine Or.inr (Or.inl ⟨rfl, ?_⟩)
    rcases hi with hi | hi | hi | hi | hi
    · exact unset hi
    · exact Or.inl (known (n := own + 3) hi)
    · exact computed (hi ▸ computes_advanceInstr m counter step)
    · exact unset hi
    · exact Or.inr (found hi)
  | closeLoop line => exact Or.inr (Or.inr ⟨rfl, found (List.mem_singleton.mp hi)⟩)
  | print value device =>
    simp only [Statement.code, List.mem_cons, List.not_mem_nil, or_false] at hi
    rcases hi with hi | hi <;> exact unset hi
  | ignored line words => cases hi
  | closeConditional line => cases hi

/-- **Jumps land at statements or in the header of a loop.** In a balanced program each opener has
a closer and each closer an opener, so no jump is left without its target. -/
theorem Balanced.landing_of_target {m : Mnemonics} {ss : List Statement}
    (h : Balanced ss) {i : Instr} (hi : i ∈ layout m ss) {target : Nat}
    (htarget : i.target = some (target : Int)) :
    Landing ss target := by
  rcases List.mem_append.mp hi with hi | hi
  · obtain ⟨k, s, hs, hcode⟩ := exists_of_mem_layFrom hi
    rw [Nat.zero_add] at hcode
    rcases Statement.target_cases hcode htarget with
      ⟨hopens, ht | ht⟩ | ⟨hopens, ht | ht⟩ | ⟨hcloses, ht⟩
    -- A conditional jumps over its second jump, or behind its block.
    · rw [ht, ← address_succ hs]
      exact .start (k + 1)
    · obtain ⟨span, hspan, rfl, -⟩ :=
        h.exists_span_of_opens (by rw [hs]; exact hopens : ss[k]?.bind Statement.opens = _)
      rw [(partner?_of_mem_spans hspan).1] at ht
      cases ht
      exact .start span.closer
    -- A loop jumps to its test, or behind the jump back.
    · rw [ht]
      exact .test (by rw [hs]; exact hopens)
    · obtain ⟨span, hspan, rfl, hblock⟩ :=
        h.exists_span_of_opens (by rw [hs]; exact hopens : ss[k]?.bind Statement.opens = _)
      rw [(partner?_of_mem_spans hspan).1] at ht
      cases ht
      obtain ⟨closer, hcloser, hcloses⟩ :=
        Option.bind_eq_some_iff.mp (fits_of_mem_spans hspan).closes
      rw [hblock] at hcloses
      have behind := address_succ hcloser
      rw [Statement.size_of_closes hcloses] at behind
      show Landing ss (address ss span.closer + Block.loop.closerSize)
      rw [← behind]
      exact .start (span.closer + 1)
    -- The jump back goes to the step.
    · obtain ⟨span, hspan, rfl, hblock⟩ :=
        h.exists_span_of_closes (by rw [hs]; exact hcloses : ss[k]?.bind Statement.closes = _)
      rw [(partner?_of_mem_spans hspan).2] at ht
      cases ht
      have hopens := (fits_of_mem_spans hspan).opens
      rw [hblock] at hopens
      exact .step hopens
  · rw [List.mem_singleton.mp hi] at htarget
    cases htarget

/-! ### Prints in a finished program -/

/-- Printing and delivering are tied together in `code`:

- `print`: what prints has one argument, and what delivers stands behind it;
- `flush`: what delivers has one argument, and what prints stands before it;
- `target`: no jump goes to what delivers.

The machine collects what is printed until it is delivered, so in such code nothing is ever
collected for long. -/
structure Interlocked (code : List Instr) : Prop where
  print : ∀ (a : Nat) (i : Instr), code[a]? = some i → i.opcode = .print →
    ∃ source device, i = .plain .print [source] ∧
      code[a + 1]? = some (.plain .printflush [device])
  flush : ∀ (a : Nat) (i : Instr), code[a]? = some i → i.opcode = .printflush →
    ∃ b source device, a = b + 1 ∧ code[b]? = some (.plain .print [source]) ∧
      i = .plain .printflush [device]
  target : ∀ i ∈ code, i.opcode = .jump →
    ∃ target : Nat, i.target = some (target : Int) ∧
      ∀ j, code[target]? = some j → j.opcode ≠ .printflush

/-- The two instructions of a print stand side by side, at the address of the statement and the
one behind it. -/
theorem getElem?_layout_print {m : Mnemonics} {ss : List Statement} {k : Nat}
    {value device : String} (hs : ss[k]? = some (.print value device)) :
    (layout m ss)[address ss k]? = some (.plain .print [value]) ∧
      (layout m ss)[address ss k + 1]? = some (.plain .printflush [device]) := by
  have first := getElem?_layout (m := m) hs (i := 0) (by simp [Statement.size])
  have second := getElem?_layout (m := m) hs (i := 1) (by simp [Statement.size])
  exact ⟨first, second⟩

/-- Printing and delivering are tied together in the code of every program that the generator
accepts, however its blocks cross. -/
theorem interlocked_of_generate {m : Mnemonics} {statements : List (List Token)}
    (h : (Generator.generate m {} statements).2 = none) :
    Interlocked (Generator.generate m {} statements).1.code := by
  obtain ⟨ss, g, -, laid, all_taken, hgenerate⟩ := laid_of_generate h
  have balanced : Balanced ss := ⟨all_taken, laid.closers⟩
  have hcode : (Generator.generate m {} statements).1.code = layout m ss := by
    rw [hgenerate, Generator.append, laid.code]
    rfl
  rw [hcode]
  refine ⟨fun a i hi hopcode => ?_, fun a i hi hopcode => ?_, fun i hi hjump => ?_⟩
  · obtain ⟨k, value, device, hs, ⟨rfl, rfl⟩ | ⟨-, rfl⟩⟩ :=
      exists_print_of_getElem?_layout hi (Or.inl hopcode)
    · exact ⟨value, device, rfl, (getElem?_layout_print hs).2⟩
    · cases hopcode
  · obtain ⟨k, value, device, hs, ⟨-, rfl⟩ | ⟨rfl, rfl⟩⟩ :=
      exists_print_of_getElem?_layout hi (Or.inr hopcode)
    · cases hopcode
    · exact ⟨address ss k, value, device, rfl, (getElem?_layout_print hs).1, rfl⟩
  · -- A jump to what delivers would land in the middle of a print.
    obtain ⟨target, htarget, -⟩ := balanced.resolved laid.supported hi hjump
    refine ⟨target, htarget, fun j hj hflush => ?_⟩
    have landing := balanced.landing_of_target hi htarget
    obtain ⟨k, value, device, hs, ⟨-, rfl⟩ | ⟨rfl, -⟩⟩ :=
      exists_print_of_getElem?_layout hj (Or.inr hflush)
    · cases hflush
    · exact landing.ne_of_print hs rfl

end Tickscript
