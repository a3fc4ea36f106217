import Tickscript.Proofs.Generator.Layout

/-!
# `Tickscript.Proofs.Generator.Targets`: the instructions of a finished program

Once all blocks are closed, every jump of a layout has a target and no target lies behind the end
of the program. `Instr.Fits` lists the forms that an instruction can have, each with its target in
range; `fits_of_mem_body` says that there are no others. This is what running a program needs to
know about the code, so nothing later opens `Statement.code` again.

`laidOut_of_generate` puts the theory of the layout together for a program that the generator
accepts: where each statement stands, where each jump goes, that the program can be written as
text, and what is told on the way.
-/

set_option autoImplicit false

namespace Tickscript

open Tickscript.Numeral

/-- The forms of an instruction other than the end of a program, for code that ends at the address
`limit`. Operation words come from the table, but for the word of a step that is not written out.
Where a target occurs, it is at most `limit`, the address of the last instruction. -/
inductive Instr.Fits (m : Mnemonics) (limit : Nat) : Instr → Prop where
  | set (dest source : String) : Fits m limit (.plain .set [dest, source])
  | operation (op word dest left right : String) (known : m.get? op = some word) :
      Fits m limit (.plain .op [word, dest, left, right])
  | increment (counter : String) : Fits m limit (.plain .op ["add", counter, counter, "1"])
  | sensor (dest object property : String) :
      Fits m limit (.plain .sensor [dest, object, property])
  | goto (target : Nat) (inside : target ≤ limit) : Fits m limit (.jumpTo target [always])
  | branch (op word left right : String) (target : Nat) (comparison : op ∈ comparisons)
      (known : m.get? op = some word) (inside : target ≤ limit) :
      Fits m limit (.jumpTo target [word, left, right])
  | leave (target : Nat) (inside : target ≤ limit) :
      Fits m limit (.jumpTo target ["equal", loopFlag, "false"])
  | print (source : String) : Fits m limit (.plain .print [source])
  | flush (device : String) : Fits m limit (.plain .printflush [device])

/-- A supported operator makes an instruction of a known form: one that reads a property, or an
operation with a word of the table. -/
theorem fits_combineInstr {m : Mnemonics} {limit : Nat} {op : Token} (h : m.Supports op)
    (dest left right : String) : (combineInstr m dest left op right).Fits m limit := by
  unfold combineInstr operationWord
  split
  · exact .sensor dest left right
  · rename_i hsensor
    rcases h with h | h
    · exact absurd h hsensor
    · obtain ⟨word, hword⟩ := Option.isSome_iff_exists.mp h
      rw [hword]
      exact .operation op.text word dest left right hword

/-- A chain of supported operators makes instructions of known forms. The induction is on the
chain, with any operand to start from. -/
theorem fits_combineAll {m : Mnemonics} {limit : Nat} {dest : String} :
    ∀ {left : String} {rest : List (Token × String)}, (∀ pair ∈ rest, m.Supports pair.1) →
      ∀ i ∈ combineAll m dest left rest, i.Fits m limit := by
  intro left rest
  induction rest generalizing left with
  | nil => intro _ i hi; simp [combineAll] at hi
  | cons pair rest ih =>
    intro supported i hi
    rcases List.mem_cons.mp hi with rfl | hi
    · exact fits_combineInstr (supported pair List.mem_cons_self) dest left pair.2
    · exact ih (fun other hother => supported other (List.mem_cons_of_mem _ hother)) i hi

/-- The step of a loop has a known form. A step that is not written out has a form of its own,
because its word does not come from the table. -/
theorem fits_advanceInstr {m : Mnemonics} {limit : Nat} {step : Option Step}
    (h : ∀ s ∈ step, m.Supports s.op) (counter : String) :
    (advanceInstr m counter step).Fits m limit := by
  cases step with
  | none => exact .increment counter
  | some step => exact fits_combineInstr (h step rfl) step.dest step.left step.right

/-- A supported statement makes instructions of known forms. Its own code must end before `limit`;
an opener needs its closer to end there too, and a closer needs the header of its opener to. -/
theorem Statement.fits_code {m : Mnemonics} {s : Statement} {own limit : Nat}
    {partner : Option Nat} (supported : s.Supported m) (hown : own + s.size ≤ limit)
    (hopens : ∀ b, s.opens = some b → ∃ p, partner = some p ∧ p + b.closerSize ≤ limit)
    (hcloses : ∀ b, s.closes = some b → ∃ p, partner = some p ∧ p + b.exitOffset < limit) :
    ∀ i ∈ s.code m own partner, i.Fits m limit := by
  cases s with
  | ignored line words => intro i hi; simp [Statement.code] at hi
  | assign dest first rest =>
    intro i hi
    simp only [Statement.code] at hi
    split at hi
    · rw [List.mem_singleton.mp hi]
      exact .set dest first
    · exact fits_combineAll supported i hi
  | openConditional line test =>
    obtain ⟨-, comparison, known⟩ := supported
    obtain ⟨word, hword⟩ := Option.isSome_iff_exists.mp known
    obtain ⟨p, rfl, hp⟩ := hopens .conditional rfl
    intro i hi
    simp only [Statement.code, operationWord, hword, Option.getD_some, Instr.jumpTo?_some,
      List.mem_cons, List.not_mem_nil, or_false] at hi
    rcases hi with rfl | rfl
    · exact .branch test.op.text word test.left test.right (own + 2) comparison hword hown
    · exact .goto p hp
  | closeConditional line => intro i hi; simp [Statement.code] at hi
  | openLoop line counter start test step =>
    obtain ⟨stepSupported, -, -, known⟩ := supported
    obtain ⟨word, hword⟩ := Option.isSome_iff_exists.mp known
    obtain ⟨p, rfl, hp⟩ := hopens .loop rfl
    intro i hi
    simp only [Statement.code, operationWord, hword, Option.getD_some, Option.map_some,
      Instr.jumpTo?_some, List.mem_cons, List.not_mem_nil, or_false] at hi
    rcases hi with rfl | rfl | rfl | rfl | rfl
    · exact .set counter start
    · -- The test of a loop is in its own code, so the jump over the step stays inside.
      exact .goto (own + 3) (by simp only [Statement.size] at hown; omega)
    · exact fits_advanceInstr stepSupported counter
    · exact .operation test.op.text word loopFlag test.left test.right hword
    · exact .leave (p + 1) hp
  | closeLoop line =>
    obtain ⟨p, rfl, hp⟩ := hcloses .loop rfl
    intro i hi
    simp only [Statement.code, Option.map_some, Instr.jumpTo?_some, List.mem_cons,
      List.not_mem_nil, or_false] at hi
    subst hi
    exact .goto (p + 2) (by simp only [Block.exitOffset] at hp; omega)
  | print value device =>
    intro i hi
    simp only [Statement.code, List.mem_cons, List.not_mem_nil, or_false] at hi
    rcases hi with rfl | rfl
    · exact .print value
    · exact .flush device

/-! ### Programs with all blocks closed -/

/-- Every opener has its closer and every closer its opener. It is what `Laid` says of a program
once both stacks are empty. -/
structure Balanced (ss : List Statement) : Prop where
  all_taken : ∀ b, untaken ss b = []
  closers_eq : (spans ss).map Span.closer = closers ss

/-- An opener of a balanced program is that of a span. Otherwise it would be among those that are
left. -/
theorem Balanced.exists_span_of_opens {ss : List Statement} (h : Balanced ss)
    {k : Nat} {b : Block} (hk : ss[k]?.bind Statement.opens = some b) :
    ∃ span ∈ spans ss, span.opener = k ∧ span.block = b := by
  obtain ⟨s, hs, -⟩ := Option.bind_eq_some_iff.mp hk
  have hlt : k < ss.length := (List.getElem?_eq_some_iff.mp hs).1
  by_cases taken : ∃ span ∈ spans ss, span.opener = k
  · obtain ⟨span, hspan, rfl⟩ := taken
    have hopens := (fits_of_mem_spans hspan).opens
    rw [hk] at hopens
    exact ⟨span, hspan, rfl, (Option.some.inj hopens).symm⟩
  · have left : k ∈ untaken ss b :=
      mem_untaken.mpr ⟨hlt, hk, fun span hspan heq => taken ⟨span, hspan, heq⟩⟩
    rw [h.all_taken b] at left
    simp at left

/-- A closer of a balanced program is that of a span, because the closers of the spans are all the
closers there are. -/
theorem Balanced.exists_span_of_closes {ss : List Statement} (h : Balanced ss)
    {j : Nat} {b : Block} (hj : ss[j]?.bind Statement.closes = some b) :
    ∃ span ∈ spans ss, span.closer = j ∧ span.block = b := by
  obtain ⟨s, hs, -⟩ := Option.bind_eq_some_iff.mp hj
  have hlt : j < ss.length := (List.getElem?_eq_some_iff.mp hs).1
  have mem : j ∈ closers ss :=
    List.mem_filter.mpr ⟨List.mem_range.mpr hlt, by rw [hj]; rfl⟩
  rw [← h.closers_eq] at mem
  obtain ⟨span, hmem, hcloser⟩ := List.mem_map.mp mem
  refine ⟨span, hmem, hcloser, ?_⟩
  have hcloses := (fits_of_mem_spans hmem).closes
  rw [hcloser, hj] at hcloses
  exact (Option.some.inj hcloses).symm

/-- An instruction of a layout belongs to one of the statements, and it is one of the code that
the statement has at its place. The induction is on the statements, from any position on. -/
theorem exists_of_mem_layFrom {m : Mnemonics} {addr : Nat → Nat} {partner : Nat → Option Nat}
    {k : Nat} {ss : List Statement} {i : Instr} (h : i ∈ layFrom m addr partner k ss) :
    ∃ (n : Nat) (s : Statement), ss[n]? = some s ∧
      i ∈ s.code m (addr (k + n)) ((partner (k + n)).map addr) := by
  induction ss generalizing k with
  | nil => simp [layFrom] at h
  | cons s ss ih =>
    rcases List.mem_append.mp h with h | h
    · exact ⟨0, s, rfl, h⟩
    · obtain ⟨n, t, ht, hi⟩ := ih h
      refine ⟨n + 1, t, ht, ?_⟩
      rwa [Nat.add_right_comm, Nat.add_assoc] at hi

/-- The instructions of a balanced program have the known forms, with targets that do not lie
behind the end. The end itself is allowed: a block may be the last thing in a program. -/
theorem Balanced.fits_of_mem_body {m : Mnemonics} {ss : List Statement} (h : Balanced ss)
    (supported : ∀ s ∈ ss, s.Supported m) :
    ∀ i ∈ body m ss, i.Fits m (address ss ss.length) := by
  intro i hi
  obtain ⟨k, s, hs, hcode⟩ := exists_of_mem_layFrom hi
  rw [Nat.zero_add] at hcode
  refine Statement.fits_code (supported s (List.mem_of_getElem? hs)) (address_add_size_le hs)
    (fun b hb => ?_) (fun b hb => ?_) i hcode
  -- An opener jumps behind its closer, and a closer into the header of its opener.
  · obtain ⟨span, hspan, rfl, rfl⟩ :=
      h.exists_span_of_opens (by rw [hs]; exact hb : ss[k]?.bind Statement.opens = some b)
    obtain ⟨closer, hcloser, hcloses⟩ :=
      Option.bind_eq_some_iff.mp (fits_of_mem_spans hspan).closes
    refine ⟨address ss span.closer, by rw [(partner?_of_mem_spans hspan).1]; rfl, ?_⟩
    rw [← Statement.size_of_closes hcloses]
    exact address_add_size_le hcloser
  · obtain ⟨span, hspan, rfl, rfl⟩ :=
      h.exists_span_of_closes (by rw [hs]; exact hb : ss[k]?.bind Statement.closes = some b)
    obtain ⟨opener, hopener, hopens⟩ :=
      Option.bind_eq_some_iff.mp (fits_of_mem_spans hspan).opens
    refine ⟨address ss span.opener, by rw [(partner?_of_mem_spans hspan).2]; rfl, ?_⟩
    have room := Statement.exitOffset_lt_size hopens
    have inside := address_add_size_le hopener
    omega

/-! ### Where things stand in a finished program -/

/-- The target of the instruction at an address, if there is an instruction there and it has
one. -/
def targetAt (code : List Instr) (i : Nat) : Option Int :=
  code[i]?.bind Instr.target

/-- The instructions of a statement stand one behind the other from its address on. With this an
address and an offset lead to an instruction. -/
theorem getElem?_layout {m : Mnemonics} {ss : List Statement} {k i : Nat} {s : Statement}
    (hs : ss[k]? = some s) (hi : i < s.size) :
    (layout m ss)[address ss k + i]? =
      (s.code m (address ss k) ((partner? (spans ss) k).map (address ss)))[i]? := by
  have inside := address_add_size_le hs
  rw [layout, List.getElem?_append_left (by rw [length_body]; omega), ← take_drop_body hs,
    List.getElem?_take_of_lt hi, List.getElem?_drop]

/-- The opener of a span, with the code that it has in the layout. Its partner is known, so no
target is missing. -/
theorem getElem?_layout_opener {m : Mnemonics} {ss : List Statement} {span : Span}
    (h : span ∈ spans ss) :
    ∃ opener : Statement, opener.opens = some span.block ∧ ∀ i < opener.size,
      (layout m ss)[address ss span.opener + i]? =
        (opener.code m (address ss span.opener) (some (address ss span.closer)))[i]? := by
  obtain ⟨opener, hopener, hopens⟩ := Option.bind_eq_some_iff.mp (fits_of_mem_spans h).opens
  refine ⟨opener, hopens, fun i hi => ?_⟩
  rw [getElem?_layout hopener hi, (partner?_of_mem_spans h).1]
  rfl

/-- The closer of a span, with the code that it has in the layout. It is the counterpart of
`getElem?_layout_opener`. -/
theorem getElem?_layout_closer {m : Mnemonics} {ss : List Statement} {span : Span}
    (h : span ∈ spans ss) :
    ∃ closer : Statement, closer.closes = some span.block ∧ ∀ i < closer.size,
      (layout m ss)[address ss span.closer + i]? =
        (closer.code m (address ss span.closer) (some (address ss span.opener)))[i]? := by
  obtain ⟨closer, hcloser, hcloses⟩ := Option.bind_eq_some_iff.mp (fits_of_mem_spans h).closes
  refine ⟨closer, hcloses, fun i hi => ?_⟩
  rw [getElem?_layout hcloser hi, (partner?_of_mem_spans h).2]
  rfl

/-- The two jumps of a conditional: one over the other, and one behind the block. The closer of a
conditional has no code of its own, so its address is that of what follows. -/
theorem targetAt_conditional {m : Mnemonics} {ss : List Statement} {span : Span}
    (h : span ∈ spans ss) (hblock : span.block = .conditional) :
    targetAt (layout m ss) (address ss span.opener) = some (address ss span.opener + 2 : Nat) ∧
      targetAt (layout m ss) (address ss span.opener + 1) =
        some (address ss span.closer : Nat) := by
  obtain ⟨opener, hopens, there⟩ := getElem?_layout_opener (m := m) h
  rw [hblock] at hopens
  cases opener with
  | openConditional line test =>
    have first := there 0 (Nat.zero_lt_succ 1)
    have second := there 1 (Nat.lt_succ_self 1)
    rw [Nat.add_zero] at first
    rw [targetAt, targetAt, first, second]
    exact ⟨rfl, rfl⟩
  | _ => cases hopens

/-- The three jumps of a loop: over the step on entry, behind the jump back on exit, and back to
the step. The closer is an instruction here, and the loop is left to the address behind it. -/
theorem targetAt_loop {m : Mnemonics} {ss : List Statement} {span : Span}
    (h : span ∈ spans ss) (hblock : span.block = .loop) :
    targetAt (layout m ss) (address ss span.opener + 1) =
      some (address ss span.opener + 3 : Nat) ∧
      targetAt (layout m ss) (address ss span.opener + 4) =
        some (address ss span.closer + 1 : Nat) ∧
      targetAt (layout m ss) (address ss span.closer) =
        some (address ss span.opener + 2 : Nat) := by
  obtain ⟨opener, hopens, atOpener⟩ := getElem?_layout_opener (m := m) h
  obtain ⟨closer, hcloses, atCloser⟩ := getElem?_layout_closer (m := m) h
  rw [hblock] at hopens hcloses
  cases opener with
  | openLoop line counter start test step =>
    cases closer with
    | closeLoop line =>
      have entry := atOpener 1 (by simp [Statement.size])
      have leave := atOpener 4 (by simp [Statement.size])
      have back := atCloser 0 (by simp [Statement.size])
      rw [Nat.add_zero] at back
      rw [targetAt, targetAt, targetAt, entry, leave, back]
      exact ⟨rfl, rfl, rfl⟩
    | _ => cases hcloses
  | _ => cases hopens

/-- An instruction of a known form is not the end of a program. So the end stands where the
generator puts it and nowhere else. -/
theorem Instr.Fits.opcode_ne_halt {m : Mnemonics} {limit : Nat} {i : Instr} (h : i.Fits m limit) :
    i.opcode ≠ .halt := by
  cases h <;> exact fun h => nomatch h

/-- A jump of a known form has a target in range. Three of the forms are jumps, and each of them
has the bound as part of it. -/
theorem Instr.Fits.target {m : Mnemonics} {limit : Nat} {i : Instr} (h : i.Fits m limit)
    (hjump : i.opcode = .jump) :
    ∃ target : Nat, i.target = some (target : Int) ∧ target ≤ limit := by
  cases h with
  | goto target inside => exact ⟨target, rfl, inside⟩
  | branch op word left right target comparison known inside => exact ⟨target, rfl, inside⟩
  | leave target inside => exact ⟨target, rfl, inside⟩
  | _ => cases hjump

/-- An instruction has a text if its target, in case it is a jump, is one that can be written.
Numbers with too many digits cannot be written, and targets are numbers. -/
theorem exists_render {i : Instr} (h : i.opcode = .jump →
    ∃ target : Nat, i.target = some (target : Int) ∧ target < Nat.pow 10 digitLimit) :
    ∃ text, i.render = .ok text := by
  unfold Instr.render
  split
  · rename_i hjump
    obtain ⟨target, htarget, hlt⟩ := h hjump
    have written : writeInteger (target : Int) = .ok (toString (target : Int)) := by
      rw [writeInteger, Int.natAbs_natCast, if_neg (Nat.not_le_of_lt hlt)]
    rw [htarget]
    simp only [written]
    exact ⟨_, rfl⟩
  · exact ⟨_, rfl⟩

/-- A program has a text if each of its instructions has one, since the text is put together line
by line. -/
theorem exists_encode {code : List Instr} (h : ∀ i ∈ code, ∃ text, i.render = .ok text) :
    ∃ text, encode code = .ok text := by
  have lines : ∃ lines, renderAll code = .ok lines := by
    unfold renderAll
    induction code with
    | nil => exact ⟨[], rfl⟩
    | cons i code ih =>
      obtain ⟨text, htext⟩ := h i List.mem_cons_self
      obtain ⟨lines, hlines⟩ := ih fun j hj => h j (List.mem_cons_of_mem _ hj)
      exact ⟨text :: lines, by
        simp [List.mapM_cons, htext, hlines, bind, Except.bind, pure, Except.pure]⟩
  obtain ⟨lines, hlines⟩ := lines
  exact ⟨_, by rw [encode, hlines]; rfl⟩

/-- The code and the notices of a finished program, measured against two passes over its
statements.

- `ends_at`: the end of the program is the last instruction and stands nowhere else;
- `statement`: the code of a statement stands from its address up to that of the next one;
- `opener_closed`, `closer_opened`: every opener has its closer and every closer its opener;
- `conditional`, `loop`: where the jumps of a block go;
- `resolved`: no jump is without a target and none goes behind the end;
- `encodes`: the program has a text. The bound is that of writing an address, and far beyond the
  length of any list;
- `closers_told`, `told`: each closer gives one notice, in order, and no other notice is of its
  level. -/
structure LaidOut (m : Mnemonics) (ss : List Statement) (code : List Instr)
    (notices : List Notice) : Prop where
  length : code.length = address ss ss.length + 1
  ends_at : ∀ i, code[i]?.map Instr.opcode = some .halt ↔ i = address ss ss.length
  statement : ∀ (k : Nat) (s : Statement), ss[k]? = some s →
    address ss (k + 1) = address ss k + s.size ∧
      (code.drop (address ss k)).take s.size =
        s.code m (address ss k) ((partner? (spans ss) k).map (address ss))
  opener_closed : ∀ (k : Nat) (b : Block), ss[k]?.bind Statement.opens = some b →
    ∃ span ∈ spans ss, span.opener = k ∧ span.block = b
  closer_opened : ∀ (j : Nat) (b : Block), ss[j]?.bind Statement.closes = some b →
    ∃ span ∈ spans ss, span.closer = j ∧ span.block = b
  conditional : ∀ span ∈ spans ss, span.block = .conditional →
    targetAt code (address ss span.opener) = some (address ss span.opener + 2 : Nat) ∧
      targetAt code (address ss span.opener + 1) = some (address ss span.closer : Nat)
  loop : ∀ span ∈ spans ss, span.block = .loop →
    targetAt code (address ss span.opener + 1) = some (address ss span.opener + 3 : Nat) ∧
      targetAt code (address ss span.opener + 4) = some (address ss span.closer + 1 : Nat) ∧
      targetAt code (address ss span.closer) = some (address ss span.opener + 2 : Nat)
  resolved : ∀ i ∈ code, i.opcode = .jump →
    ∃ target : Nat, i.target = some (target : Int) ∧ target ≤ address ss ss.length
  encodes : code.length ≤ Nat.pow 10 digitLimit → ∃ text, encode code = .ok text
  closers_told : (spans ss).map Span.closer = closers ss
  told : patchNotices notices = (spans ss).map (patchNotice ss)

/-- Every jump of a finished program has a target, and none lies behind the end. The last
instruction is no jump, so this is a matter of the body. -/
theorem Balanced.resolved {m : Mnemonics} {ss : List Statement} (h : Balanced ss)
    (supported : ∀ s ∈ ss, s.Supported m) {i : Instr} (hi : i ∈ layout m ss)
    (hjump : i.opcode = .jump) :
    ∃ target : Nat, i.target = some (target : Int) ∧ target ≤ address ss ss.length := by
  rcases List.mem_append.mp hi with hi | hi
  · exact (h.fits_of_mem_body supported i hi).target hjump
  · rw [List.mem_singleton.mp hi] at hjump
    cases hjump

/-- The end of a finished program is its last instruction and stands nowhere else. A machine that
runs it comes to an end of a round only there. -/
theorem Balanced.ends_at {m : Mnemonics} {ss : List Statement} (h : Balanced ss)
    (supported : ∀ s ∈ ss, s.Supported m) (i : Nat) :
    (layout m ss)[i]?.map Instr.opcode = some .halt ↔ i = address ss ss.length := by
  constructor
  · intro hhalt
    obtain ⟨instr, hinstr, hopcode⟩ := Option.map_eq_some_iff.mp hhalt
    have hlt := (List.getElem?_eq_some_iff.mp hinstr).1
    rw [layout, List.length_append, length_body, List.length_singleton] at hlt
    by_cases hbody : i < address ss ss.length
    · -- Inside the body every instruction has a known form, and none of these is the end.
      rw [layout, List.getElem?_append_left (by rwa [length_body])] at hinstr
      have fits := h.fits_of_mem_body supported instr (List.mem_of_getElem? hinstr)
      exact absurd hopcode fits.opcode_ne_halt
    · omega
  · rintro rfl
    rw [layout, ← length_body m ss, List.getElem?_concat_length]
    rfl

/-- **Back-patching equals the two-pass layout.** A program that the generator accepts, with any
table of operations, has been read as statements, and its code and its notices are those that two
passes over these statements give: see `LaidOut`. -/
theorem laidOut_of_generate {m : Mnemonics} {statements : List (List Token)}
    (h : (Generator.generate m {} statements).2 = none) :
    ∃ ss, statements.mapM Statement.ofTokens = .ok ss ∧
      (Generator.generate m {} statements).1.code = layout m ss ∧
      LaidOut m ss (Generator.generate m {} statements).1.code
        (Generator.generate m {} statements).1.notices := by
  obtain ⟨ss, g, hss, laid, all_taken, hgenerate⟩ := laid_of_generate h
  have balanced : Balanced ss := ⟨all_taken, laid.closers⟩
  have hcode : (Generator.generate m {} statements).1.code = layout m ss := by
    rw [hgenerate, Generator.append, laid.code]
    rfl
  refine ⟨ss, hss, hcode, ?_⟩
  have hlength : (layout m ss).length = address ss ss.length + 1 := by
    rw [layout, List.length_append, length_body]
    rfl
  rw [hcode, hgenerate]
  refine ⟨hlength, balanced.ends_at laid.supported, fun k s hs => ⟨address_succ hs, ?_⟩,
    fun k b hk => balanced.exists_span_of_opens hk,
    fun j b hj => balanced.exists_span_of_closes hj,
    fun span hspan => targetAt_conditional hspan, fun span hspan => targetAt_loop hspan,
    fun i hi => balanced.resolved laid.supported hi, fun hbound => ?_, laid.closers, laid.notices⟩
  · have inside := address_add_size_le hs
    rw [layout, List.drop_append_of_le_length (by rw [length_body]; omega),
      List.take_append_of_le_length (by rw [List.length_drop, length_body]; omega),
      take_drop_body hs]
  · -- A target is at most the address of the end, and that is below the length of the code.
    refine exists_encode fun i hi => exists_render fun hjump => ?_
    obtain ⟨target, htarget, hle⟩ := balanced.resolved laid.supported hi hjump
    exact ⟨target, htarget, by omega⟩

/-- A conditional and a loop that cross are laid out like any other blocks: the conditional ends
inside the loop, and its jump goes there. -/
theorem laidOut_of_crossing_blocks :
    let crossing : List (List Token) :=
      [[⟨.keyword, "if", 1⟩, ⟨.name, "a", 1⟩, ⟨.operator, "<", 1⟩, ⟨.name, "b", 1⟩],
        [⟨.keyword, "for", 2⟩, ⟨.name, "i", 2⟩, ⟨.operator, "=", 2⟩, ⟨.value, "0", 2⟩,
          ⟨.name, "i", 2⟩, ⟨.operator, "<", 2⟩, ⟨.value, "3", 2⟩],
        [⟨.keyword, "endif", 3⟩], [⟨.name, "x", 4⟩, ⟨.operator, "=", 4⟩, ⟨.value, "1", 4⟩],
        [⟨.keyword, "endfor", 5⟩]]
    let made := Generator.generate .standard {} crossing
    made.2 = none ∧ targetAt made.1.code 1 = some 7 ∧ targetAt made.1.code 6 = some 9 ∧
      ∃ ss, crossing.mapM Statement.ofTokens = .ok ss ∧ made.1.code = layout .standard ss ∧
        LaidOut .standard ss made.1.code made.1.notices :=
  ⟨by decide, by decide, by decide, laidOut_of_generate (by decide)⟩

end Tickscript
