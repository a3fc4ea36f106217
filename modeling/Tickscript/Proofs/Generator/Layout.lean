import Mathlib.Algebra.GroupWithZero.Nat
import Tickscript.ProgramText
import Tickscript.Proofs.Generator.Pairing

/-!
# `Tickscript.Proofs.Generator.Layout`: back-patching gives the two-pass layout

An assembler with two passes would first give every statement its address, by adding up sizes, and
then write the code of each statement with all targets known. `layout` is that assembler. The
generator has one pass and sets targets afterwards, so its code is only right once every block is
closed.

`Laid` is what ties the two together while statements are still coming: the code so far is the
layout of the statements so far, in which an opener without a closer has no target yet; the stacks
hold the places of these openers; and the notices tell of the spans that are closed. `laid_concat`
takes it through one statement. A closer is the step that needs work: its span changes the code of
a statement far back, and `body_concat_closer` shows that this is the one instruction that the
generator patches.
-/

set_option autoImplicit false

namespace Tickscript

/-- The address of the statement at position `k`: the sizes of all statements before it. A size
does not depend on targets, so addresses are known before any code is written. -/
def address (ss : List Statement) (k : Nat) : Nat :=
  ((ss.take k).map Statement.size).sum

/-- The position of the other end of a block, for either end. A position that is no end of a
block, or an end that has not met the other one, has no partner. -/
def partner? (all : List Span) (k : Nat) : Option Nat :=
  ((all.find? (·.opener == k)).map (·.closer)).or ((all.find? (·.closer == k)).map (·.opener))

/-- The code of statements from position `k` on, where `addr` gives the address of a position and
`partner` the other end of a block. Positions count from the start of the program, so that a part
of a program is laid out with the targets of the whole. -/
def layFrom (m : Mnemonics) (addr : Nat → Nat) (partner : Nat → Option Nat) :
    Nat → List Statement → List Instr
  | _, [] => []
  | k, s :: rest =>
    s.code m (addr k) ((partner k).map addr) ++ layFrom m addr partner (k + 1) rest

/-- The code of statements by two passes. An end of a block without its partner has no target.
This lets the layout be compared with the generator at any time, and not only at the end. -/
def body (m : Mnemonics) (ss : List Statement) : List Instr :=
  layFrom m (address ss) (partner? (spans ss)) 0 ss

/-- The code of a program by two passes: the code of its statements, and the instruction that ends
a round of the program. -/
def layout (m : Mnemonics) (ss : List Statement) : List Instr :=
  body m ss ++ [.plain .halt []]

/-! ### Addresses -/

/-- Addresses do not depend on later statements. The generator relies on this when it sets a
target and goes on. -/
theorem address_append {ss more : List Statement} {k : Nat} (hk : k ≤ ss.length) :
    address (ss ++ more) k = address ss k := by
  unfold address
  rw [List.take_append_of_le_length hk]

/-- The next address is behind the code of a statement. It is the recursion that all comparisons
of addresses in this development use. -/
theorem address_succ {ss : List Statement} {k : Nat} {s : Statement} (hs : ss[k]? = some s) :
    address ss (k + 1) = address ss k + s.size := by
  unfold address
  rw [List.take_add_one, hs]
  simp

/-- Later statements have later addresses, though not strictly: a statement that makes no code
shares its address with the next one. -/
theorem address_mono {ss : List Statement} {i j : Nat} (h : i ≤ j) :
    address ss i ≤ address ss j := by
  obtain ⟨d, rfl⟩ := Nat.exists_eq_add_of_le h
  unfold address
  rw [List.take_add, List.map_append, List.sum_append]
  exact Nat.le_add_right _ _

/-- The code of a statement ends before the end of the program, so each of its instructions is one
of the program. -/
theorem address_add_size_le {ss : List Statement} {k : Nat} {s : Statement}
    (hs : ss[k]? = some s) : address ss k + s.size ≤ address ss ss.length := by
  rw [← address_succ hs]
  exact address_mono (List.getElem?_eq_some_iff.mp hs).1

/-! ### Partners -/

/-- A position that is no end of a span has no partner. Both searches of `partner?` come back with
nothing. -/
theorem partner?_eq_none {all : List Span} {k : Nat}
    (h : ∀ span ∈ all, span.opener ≠ k ∧ span.closer ≠ k) : partner? all k = none := by
  have opener : all.find? (·.opener == k) = none :=
    List.find?_eq_none.mpr fun span hspan => by simpa using (h span hspan).1
  have closer : all.find? (·.closer == k) = none :=
    List.find?_eq_none.mpr fun span hspan => by simpa using (h span hspan).2
  rw [partner?, opener, closer]
  rfl

/-- One more span does not change the partners of other positions. So a new span leaves the code
of all statements but its two ends as it was. -/
theorem partner?_concat_of_ne {all : List Span} {span : Span} {k : Nat}
    (hopener : span.opener ≠ k) (hcloser : span.closer ≠ k) :
    partner? (all ++ [span]) k = partner? all k := by
  simp [partner?, List.find?_append, hopener, hcloser]

/-- The closer of one more span is the partner of its opener, if the opener belonged to no span
before. -/
theorem partner?_concat_opener {all : List Span} (span : Span)
    (h : ∀ old ∈ all, old.opener ≠ span.opener) :
    partner? (all ++ [span]) span.opener = some span.closer := by
  have none : all.find? (·.opener == span.opener) = none :=
    List.find?_eq_none.mpr fun old hold => by simpa using h old hold
  simp [partner?, List.find?_append, none]

/-- The opener of one more span is the partner of its closer. The closer must be no end of another
span, and not the opener itself, because `partner?` looks among the openers first. -/
theorem partner?_concat_closer {all : List Span} (span : Span)
    (h : ∀ old ∈ all, old.opener ≠ span.closer ∧ old.closer ≠ span.closer)
    (hne : span.opener ≠ span.closer) :
    partner? (all ++ [span]) span.closer = some span.opener := by
  have opener : all.find? (·.opener == span.closer) = none :=
    List.find?_eq_none.mpr fun old hold => by simpa using (h old hold).1
  have closer : all.find? (·.closer == span.closer) = none :=
    List.find?_eq_none.mpr fun old hold => by simpa using (h old hold).2
  simp [partner?, List.find?_append, opener, closer, hne]

/-- Positions behind the statements have no partner. This is the place where one more statement
will stand. -/
theorem partner?_spans_length (ss : List Statement) : partner? (spans ss) ss.length = none := by
  refine partner?_eq_none fun span hspan => ?_
  have fits := fits_of_mem_spans hspan
  exact ⟨Nat.ne_of_lt (Nat.lt_trans fits.lt fits.lt_length), Nat.ne_of_lt fits.lt_length⟩

/-- The two ends of a span are positions of different kinds of statements: no statement both opens
and closes a block. -/
theorem Span.Fits.closer_ne {ss : List Statement} {span : Span} (fits : span.Fits ss) {k : Nat}
    {b : Block} (hk : ss[k]?.bind Statement.opens = some b) : span.closer ≠ k := by
  rintro rfl
  obtain ⟨s, hs, hopens⟩ := Option.bind_eq_some_iff.mp hk
  have hcloses := fits.closes
  rw [hs, Option.bind_some, Statement.closes_of_opens hopens] at hcloses
  cases hcloses

/-- An opener that is left has no partner yet, neither as an opener nor as a closer. Its code in
the layout therefore has no target. -/
theorem partner?_of_mem_untaken {ss : List Statement} {b : Block} {k : Nat}
    (h : k ∈ untaken ss b) : partner? (spans ss) k = none := by
  obtain ⟨-, hopens, hfree⟩ := mem_untaken.mp h
  exact partner?_eq_none fun span hspan =>
    ⟨hfree span hspan, (fits_of_mem_spans hspan).closer_ne hopens⟩

/-- The partner of a position comes before the end of the statements, and so its address does not
change when statements are added. -/
theorem lt_length_of_partner? {ss : List Statement} {k j : Nat}
    (h : partner? (spans ss) k = some j) : j < ss.length := by
  unfold partner? at h
  rcases Option.or_eq_some_iff.mp h with h | ⟨-, h⟩
  · obtain ⟨span, hspan, rfl⟩ := Option.map_eq_some_iff.mp h
    exact (fits_of_mem_spans (List.mem_of_find?_eq_some hspan)).lt_length
  · obtain ⟨span, hspan, rfl⟩ := Option.map_eq_some_iff.mp h
    have fits := fits_of_mem_spans (List.mem_of_find?_eq_some hspan)
    exact Nat.lt_trans fits.lt fits.lt_length

/-- A search finds the only element that passes. The first match of `find?` is then that element,
wherever it stands in the list. -/
theorem find?_eq_some_of_unique {α : Type} {p : α → Bool} {all : List α} {x : α} (hx : x ∈ all)
    (hp : p x = true) (unique : ∀ y ∈ all, p y = true → y = x) : all.find? p = some x := by
  cases hfind : all.find? p with
  | none => exact absurd hp (List.find?_eq_none.mp hfind x hx)
  | some y => rw [unique y (List.mem_of_find?_eq_some hfind) (List.find?_some hfind)]

/-- Each end of a span is the partner of the other. This needs that no two spans share an end
(`span_eq_of_mem_spansUpTo`). -/
theorem partner?_of_mem_spans {ss : List Statement} {span : Span} (h : span ∈ spans ss) :
    partner? (spans ss) span.opener = some span.closer ∧
      partner? (spans ss) span.closer = some span.opener := by
  have byOpener : (spans ss).find? (·.opener == span.opener) = some span :=
    find?_eq_some_of_unique h (by simp) fun other hother heq =>
      span_eq_of_mem_spansUpTo hother h (Or.inl (by simpa using heq))
  have byCloser : (spans ss).find? (·.closer == span.closer) = some span :=
    find?_eq_some_of_unique h (by simp) fun other hother heq =>
      span_eq_of_mem_spansUpTo hother h (Or.inr (by simpa using heq))
  -- `partner?` looks among the openers first, and no opener stands where a block is closed.
  have noOpener : (spans ss).find? (·.opener == span.closer) = none := by
    refine List.find?_eq_none.mpr fun other hother => ?_
    have := (fits_of_mem_spans h).closer_ne (fits_of_mem_spans hother).opens
    simpa using Ne.symm this
  exact ⟨by rw [partner?, byOpener]; rfl, by rw [partner?, noOpener, byCloser]; rfl⟩

/-! ### The second pass -/

section SecondPass
variable {m : Mnemonics} {addr addr' : Nat → Nat} {partner partner' : Nat → Option Nat}

/-- The second pass goes through two lists of statements one after the other. The second list
starts at the position where the first one ends. -/
theorem layFrom_append (k : Nat) (xs ys : List Statement) :
    layFrom m addr partner k (xs ++ ys) =
      layFrom m addr partner k xs ++ layFrom m addr partner (k + xs.length) ys := by
  induction xs generalizing k with
  | nil => rfl
  | cons s xs ih =>
    rw [List.cons_append, layFrom, layFrom, ih, List.append_assoc, List.length_cons,
      Nat.add_right_comm, Nat.add_assoc]

/-- The second pass reads addresses and partners of the positions it goes through, and of their
partners. Where these agree, so does the code. -/
theorem layFrom_congr {k : Nat} {ss : List Statement}
    (h : ∀ i, k ≤ i → i < k + ss.length →
      addr i = addr' i ∧ (partner i).map addr = (partner' i).map addr') :
    layFrom m addr partner k ss = layFrom m addr' partner' k ss := by
  induction ss generalizing k with
  | nil => rfl
  | cons s ss ih =>
    obtain ⟨hown, hpartner⟩ := h k (Nat.le_refl k) (by simp)
    rw [layFrom, layFrom, hown, hpartner, ih fun i hi hlt => h i (by omega) (by simp; omega)]

/-- The code of statements is as long as their sizes add up to, whatever the targets are. Both
passes are in step because of this. -/
theorem length_layFrom (k : Nat) (ss : List Statement) :
    (layFrom m addr partner k ss).length = (ss.map Statement.size).sum := by
  induction ss generalizing k with
  | nil => rfl
  | cons s ss ih => simp [layFrom, ih]

end SecondPass

/-- The code of all statements ends at the address behind the last one, which is the place of the
next instruction. -/
theorem length_body (m : Mnemonics) (ss : List Statement) :
    (body m ss).length = address ss ss.length := by
  rw [body, length_layFrom, address, List.take_length]

/-- The program around the statement at position `k`: the code before it, its own code, and the
code after it. The opener of a block is singled out this way, when its closer comes and changes
its code. -/
theorem body_split {m : Mnemonics} {ss : List Statement} {k : Nat} {s : Statement}
    (hs : ss[k]? = some s) :
    body m ss =
      layFrom m (address ss) (partner? (spans ss)) 0 (ss.take k) ++
        (s.code m (address ss k) ((partner? (spans ss) k).map (address ss)) ++
          layFrom m (address ss) (partner? (spans ss)) (k + 1) (ss.drop (k + 1))) := by
  obtain ⟨hlt, rfl⟩ := List.getElem?_eq_some_iff.mp hs
  have around : ss = ss.take k ++ ss[k] :: ss.drop (k + 1) := by
    rw [List.getElem_cons_drop, List.take_append_drop]
  have position : 0 + (ss.take k).length = k := by
    rw [List.length_take]
    omega
  -- Only the statements are cut: addresses and partners are still those of the whole program.
  conv => lhs; rw [body]
  conv => lhs; arg 5; rw [around]
  rw [layFrom_append, layFrom, position]

/-- The code before a statement ends at its address, with any partners: they may be those of the
program before or after a closer. -/
theorem length_layFrom_take (m : Mnemonics) (ss : List Statement) (partner : Nat → Option Nat)
    (k : Nat) : (layFrom m (address ss) partner 0 (ss.take k)).length = address ss k :=
  length_layFrom 0 _

/-- The instructions of a statement stand from its address up to the next one. This reads the code
of one statement off the whole program. -/
theorem take_drop_body {m : Mnemonics} {ss : List Statement} {k : Nat} {s : Statement}
    (hs : ss[k]? = some s) :
    ((body m ss).drop (address ss k)).take s.size =
      s.code m (address ss k) ((partner? (spans ss) k).map (address ss)) := by
  rw [body_split hs, List.drop_left' (length_layFrom_take m ss _ k),
    List.take_left' (Statement.length_code m _ _ s)]

/-- One more statement that makes no span adds its code. Everything before it stays, because
neither an address nor a partner has changed. -/
theorem body_concat {m : Mnemonics} {ss : List Statement} {s : Statement}
    (h : spans (ss ++ [s]) = spans ss) :
    body m (ss ++ [s]) = body m ss ++ s.code m (address ss ss.length) none := by
  unfold body
  rw [layFrom_append, layFrom, layFrom, Nat.zero_add, List.append_nil, h, partner?_spans_length,
    Option.map_none, address_append (Nat.le_refl _)]
  congr 1
  refine layFrom_congr fun i _ hi => ?_
  refine ⟨address_append (by omega), Option.map_congr fun j hj => address_append ?_⟩
  have := lt_length_of_partner? hj
  omega

/-- A change inside the middle one of three lists. The generator changes the code by a place in
all of it, and the layout by a place in the code of one statement. -/
theorem modify_append_append {α : Type} (before middle after : List α) {i : Nat} (f : α → α)
    (hi : i < middle.length) :
    (before ++ (middle ++ after)).modify (before.length + i) f =
      before ++ (middle.modify i f ++ after) := by
  refine List.ext_getElem? fun j => ?_
  simp only [List.getElem?_modify, List.getElem?_append, List.length_modify]
  grind

section NewSpan
variable {m : Mnemonics} {ss : List Statement} {s : Statement} {b : Block} {k : Nat}
    {rest : List Nat}

/-- The two ends of the span that a closer makes are partners. Neither of them was an end of a
span before: the opener was left, and the closer is new. -/
theorem partner?_concat_ends (hcloses : s.closes = some b) (top : untaken ss b = k :: rest) :
    partner? (spans (ss ++ [s])) k = some ss.length ∧
      partner? (spans (ss ++ [s])) ss.length = some k := by
  obtain ⟨hlt, -, hfree⟩ :=
    mem_untaken.mp (by rw [top]; exact List.mem_cons_self : k ∈ untaken ss b)
  rw [spans_concat_of_closes hcloses top]
  refine ⟨partner?_concat_opener ⟨b, k, ss.length⟩ hfree, ?_⟩
  refine partner?_concat_closer ⟨b, k, ss.length⟩ (fun old hold => ?_) (Nat.ne_of_lt hlt)
  have fits := fits_of_mem_spans hold
  exact ⟨Nat.ne_of_lt (Nat.lt_trans fits.lt fits.lt_length), Nat.ne_of_lt fits.lt_length⟩

/-- Away from the span that a closer makes, the second pass does what it did before. The part that
is laid out lies before the opener or between the two ends. -/
theorem layFrom_of_new_span (hcloses : s.closes = some b) (top : untaken ss b = k :: rest)
    {start : Nat} {part : List Statement} (inside : start + part.length ≤ ss.length)
    (apart : k < start ∨ start + part.length ≤ k) :
    layFrom m (address (ss ++ [s])) (partner? (spans (ss ++ [s]))) start part =
      layFrom m (address ss) (partner? (spans ss)) start part := by
  refine layFrom_congr fun i hle hi => ?_
  have hik : k ≠ i := by omega
  have hlast : ss.length ≠ i := by omega
  rw [spans_concat_of_closes hcloses top, partner?_concat_of_ne hik hlast]
  refine ⟨address_append (by omega), Option.map_congr fun j hj => address_append ?_⟩
  exact Nat.le_of_lt (lt_length_of_partner? hj)

/-- The program after a closer, around the opener that it takes. Both ends have their targets, and
all other code is that of the program before. -/
theorem body_of_new_span (hcloses : s.closes = some b) (top : untaken ss b = k :: rest)
    {opener : Statement} (hopener : ss[k]? = some opener) :
    body m (ss ++ [s]) =
      layFrom m (address ss) (partner? (spans ss)) 0 (ss.take k) ++
        (opener.code m (address ss k) (some (address ss ss.length)) ++
          layFrom m (address ss) (partner? (spans ss)) (k + 1) (ss.drop (k + 1))) ++
        s.code m (address ss ss.length) (some (address ss k)) := by
  have hlt : k < ss.length := (List.getElem?_eq_some_iff.mp hopener).1
  obtain ⟨atOpener, atCloser⟩ := partner?_concat_ends hcloses top
  have here : (ss ++ [s])[k]? = some opener := by rw [List.getElem?_append_left hlt, hopener]
  have behind : k + 1 + (ss.drop (k + 1)).length = ss.length := by
    rw [List.length_drop]
    omega
  -- Cut at the opener; the closer is then the last statement of what stands behind.
  rw [body_split here, List.take_append_of_le_length (Nat.le_of_lt hlt),
    List.drop_append_of_le_length hlt, layFrom_append, layFrom, layFrom, List.append_nil, behind,
    atOpener, atCloser, Option.map_some, Option.map_some, address_append (Nat.le_of_lt hlt),
    address_append (Nat.le_refl _),
    layFrom_of_new_span hcloses top (by rw [List.length_take]; omega)
      (Or.inr (by rw [List.length_take]; omega)),
    layFrom_of_new_span hcloses top (Nat.le_of_eq behind) (Or.inl (Nat.lt_succ_self k))]
  simp only [List.append_assoc]

/-- A closer adds its code, and the code of its opener gets the target that was missing. This is
what makes one pass as good as two. -/
theorem body_concat_closer (hcloses : s.closes = some b) (top : untaken ss b = k :: rest) :
    body m (ss ++ [s]) =
      (body m ss).modify (address ss k + b.exitOffset)
          (Instr.withTarget (address ss ss.length + b.closerSize)) ++
        s.code m (address ss ss.length) (some (address ss k)) := by
  have hk : k ∈ untaken ss b := by rw [top]; exact List.mem_cons_self
  obtain ⟨opener, hopener, hblock⟩ := Option.bind_eq_some_iff.mp (mem_untaken.mp hk).2.1
  -- Before the closer came, the opener stood there without a partner.
  have old := body_split (m := m) hopener
  rw [partner?_of_mem_untaken hk, Option.map_none] at old
  rw [body_of_new_span hcloses top hopener, old,
    ← length_layFrom_take m ss (partner? (spans ss)) k, modify_append_append]
  · rw [Statement.modify_code hblock]
  · rw [Statement.length_code]
    exact Statement.exitOffset_lt_size hblock

end NewSpan

/-! ### The generator lays the code out -/

/-- The line on which the block at position `k` is opened. Notices and errors name it, so it is
part of what the generator has to keep. -/
def lineAt (ss : List Statement) (k : Nat) : Int :=
  (ss[k]?.map Statement.openingLine).getD 0

/-- The jump that an opener at position `k` leaves on its stack: its place in the code, its kind
and its line. -/
def waitingJump (ss : List Statement) (b : Block) (k : Nat) : PendingJump :=
  ⟨address ss k + b.exitOffset, b, lineAt ss k⟩

/-- What is told about a span: the place of the jump out of the block, the address behind the
block, its kind and the line of its opener. -/
def patchNotice (ss : List Statement) (span : Span) : Notice :=
  .patched (address ss span.opener + span.block.exitOffset)
    (address ss span.closer + span.block.closerSize) span.block (lineAt ss span.opener)

/-- The notices that tell of a patched jump. Others tell of ignored lines, and these come in
between. -/
def patchNotices (notices : List Notice) : List Notice :=
  notices.filter (·.level = .info)

/-- The generator `g` has laid out the statements `ss`:

- `supported`: the table has all operators;
- `code`: the code is that of the two-pass layout, with targets only where blocks are closed;
- `stack`: each stack holds the jumps of the openers of its kind that are left;
- `closers`: every closer has taken an opener;
- `notices`: the notices tell of the spans, in the order of their closers. -/
structure Laid (m : Mnemonics) (ss : List Statement) (g : Generator) : Prop where
  supported : ∀ s ∈ ss, s.Supported m
  code : g.code = body m ss
  stack : ∀ b, g.stack b = (untaken ss b).map (waitingJump ss b)
  closers : (spans ss).map Span.closer = closers ss
  notices : patchNotices g.notices = (spans ss).map (patchNotice ss)

/-- The line of an opener does not depend on later statements. -/
theorem lineAt_append {ss more : List Statement} {k : Nat} (hk : k < ss.length) :
    lineAt (ss ++ more) k = lineAt ss k := by
  unfold lineAt
  rw [List.getElem?_append_left hk]

/-- What an opener leaves on its stack does not depend on later statements. So a stack keeps its
entries while statements are added. -/
theorem map_waitingJump_append {ss : List Statement} (more : List Statement) {b : Block}
    {left : List Nat} (hleft : ∀ k ∈ left, k ∈ untaken ss b) :
    left.map (waitingJump (ss ++ more) b) = left.map (waitingJump ss b) := by
  refine List.map_congr_left fun k hk => ?_
  have hlt := (mem_untaken.mp (hleft k hk)).1
  rw [waitingJump, waitingJump, address_append (Nat.le_of_lt hlt), lineAt_append hlt]

/-- What is told about a span does not depend on later statements, so notices that were given stay
true. -/
theorem map_patchNotice_append (ss more : List Statement) :
    (spans ss).map (patchNotice (ss ++ more)) = (spans ss).map (patchNotice ss) := by
  refine List.map_congr_left fun span hspan => ?_
  have fits := fits_of_mem_spans hspan
  have hlt := Nat.lt_trans fits.lt fits.lt_length
  rw [patchNotice, patchNotice, address_append (Nat.le_of_lt hlt),
    address_append (Nat.le_of_lt fits.lt_length), lineAt_append hlt]

/-- One more supported statement, and all statements are supported. The three lemmas for one
statement share this field of `Laid`. -/
theorem Laid.supported_concat {m : Mnemonics} {ss : List Statement} {g : Generator}
    (h : Laid m ss g) {s : Statement} (hs : s.Supported m) :
    ∀ t ∈ ss ++ [s], t.Supported m := by
  intro t ht
  rcases List.mem_append.mp ht with ht | ht
  · exact h.supported t ht
  · rw [List.mem_singleton.mp ht]
    exact hs

/-- The next address is the length of the code. The generator counts its instructions, and the
layout adds up sizes. -/
theorem Laid.length {m : Mnemonics} {ss : List Statement} {g : Generator} (h : Laid m ss g) :
    g.code.length = address ss ss.length := by
  rw [h.code, length_body]

/-- A statement that is no end of a block keeps the code laid out. It makes no span and leaves no
opener, so all that it does is to add its code, and a notice if it is ignored. -/
theorem Laid.plain {m : Mnemonics} {ss : List Statement} {g after : Generator} (h : Laid m ss g)
    {s : Statement} (hopens : s.opens = none) (hcloses : s.closes = none)
    (hadd : g.add m s = (after, none)) : Laid m (ss ++ [s]) after := by
  obtain ⟨supported, hcode, hstack, hnotices⟩ := Generator.add_plain hopens hcloses hadd
  have hspans : spans (ss ++ [s]) = spans ss := spans_concat_of_closes_eq_none hcloses
  refine ⟨h.supported_concat supported, ?_, fun b => ?_, ?_, ?_⟩
  · rw [hcode, body_concat hspans, h.length, h.code]
  · rw [hstack, h.stack b, untaken_concat_plain hopens hcloses,
      map_waitingJump_append [s] fun _ hk => hk]
  · rw [hspans, h.closers, closers_concat, hcloses]
    simp
  · rw [hspans, map_patchNotice_append, ← h.notices]
    -- A notice about an ignored line is none about a patched jump.
    rcases hnotices with hnotices | ⟨line, words, hnotices⟩
    · rw [hnotices]
    · rw [hnotices, patchNotices, List.filter_append, ← patchNotices]
      simp [Notice.level]

/-- An opener keeps the code laid out; its jump waits. In the layout its jump has no target, and
the generator leaves it without one. -/
theorem Laid.opener {m : Mnemonics} {ss : List Statement} {g after : Generator} (h : Laid m ss g)
    {s : Statement} {b : Block} (hopens : s.opens = some b) (hadd : g.add m s = (after, none)) :
    Laid m (ss ++ [s]) after := by
  obtain ⟨supported, opened⟩ := Generator.add_opener hopens hadd
  have hcloses := Statement.closes_of_opens hopens
  have hspans : spans (ss ++ [s]) = spans ss := spans_concat_of_closes_eq_none hcloses
  refine ⟨h.supported_concat supported, ?_, fun other => ?_, ?_, ?_⟩
  · rw [opened.code, body_concat hspans, h.length, h.code]
  · -- The opener goes on top of its own stack, and the other stack stays.
    by_cases hother : other = b
    · subst hother
      have last : waitingJump (ss ++ [s]) other ss.length =
          ⟨g.code.length + other.exitOffset, other, s.openingLine⟩ := by
        rw [waitingJump, address_append (Nat.le_refl _), h.length, lineAt,
          List.getElem?_concat_length]
        rfl
      rw [opened.stack_self, untaken_concat_opener hopens, List.map_cons,
        map_waitingJump_append [s] fun _ hk => hk, h.stack other, last]
    · rw [opened.stack_other other hother, untaken_concat_opener_of_ne hopens hother,
        map_waitingJump_append [s] fun _ hk => hk, h.stack other]
  · rw [hspans, h.closers, closers_concat, hcloses]
    simp
  · rw [hspans, map_patchNotice_append, opened.notices, h.notices]

/-- A closer keeps the code laid out: the jump that it takes off the stack is that of the nearest
opener of its kind, and setting its target is what the layout of one more span asks for. -/
theorem Laid.closer {m : Mnemonics} {ss : List Statement} {g after : Generator} (h : Laid m ss g)
    {s : Statement} {b : Block} (hcloses : s.closes = some b) (hadd : g.add m s = (after, none)) :
    Laid m (ss ++ [s]) after := by
  obtain ⟨supported, jump, closed⟩ := Generator.add_closer hcloses hadd
  -- The stack lists the openers that are left, so its top is the one that the new span takes.
  have popped := closed.stack_self
  rw [h.stack b] at popped
  obtain ⟨k, rest, top, rfl, hrest⟩ := List.map_eq_cons_iff.mp popped
  have hspans := spans_concat_of_closes hcloses top
  have hlt : k < ss.length := (mem_untaken.mp (by rw [top]; exact List.mem_cons_self)).1
  refine ⟨h.supported_concat supported, ?_, fun other => ?_, ?_, ?_⟩
  · rw [closed.code (address ss k) rfl, body_concat_closer hcloses top, h.length, h.code]
    rfl
  · by_cases hother : other = b
    · subst hother
      have left : ∀ k ∈ rest, k ∈ untaken ss other := by
        rw [top]
        exact fun k hk => List.mem_cons_of_mem _ hk
      rw [untaken_concat_closer hcloses top, map_waitingJump_append [s] left, hrest]
    · rw [closed.stack_other other hother, untaken_concat_closer_of_ne hcloses top hother,
        map_waitingJump_append [s] fun _ hk => hk, h.stack other]
  · rw [hspans, List.map_append, h.closers, closers_concat, hcloses]
    rfl
  · -- The notice has the numbers of the jump, and these are those of the new span.
    have told : patchNotices [.patched (waitingJump ss b k).index (g.code.length + b.closerSize)
          (waitingJump ss b k).block (waitingJump ss b k).line] =
        [patchNotice (ss ++ [s]) ⟨b, k, ss.length⟩] := by
      rw [patchNotice, address_append (Nat.le_of_lt hlt), address_append (Nat.le_refl _),
        lineAt_append hlt, h.length]
      rfl
    rw [closed.notices, patchNotices, List.filter_append, ← patchNotices, ← patchNotices, told,
      h.notices, hspans, List.map_append, map_patchNotice_append]
    rfl

/-- Every statement that is accepted keeps the code laid out. It opens a block, closes one or does
neither, and there is a lemma for each of these. -/
theorem laid_concat {m : Mnemonics} {ss : List Statement} {g after : Generator} (h : Laid m ss g)
    {s : Statement} (hadd : g.add m s = (after, none)) : Laid m (ss ++ [s]) after := by
  cases hopens : s.opens with
  | some b => exact h.opener hopens hadd
  | none =>
    cases hcloses : s.closes with
    | some b => exact h.closer hcloses hadd
    | none => exact h.plain hopens hcloses hadd

/-- Statements that are all accepted keep the code laid out. The induction is on the run, with the
statements that came before as the part that grows. -/
theorem Laid.adds {m : Mnemonics} {before ss : List Statement} {g after : Generator}
    (h : Laid m before g) (hadds : Generator.Adds m g ss after) :
    Laid m (before ++ ss) after := by
  induction hadds generalizing before with
  | nil => rwa [List.append_nil]
  | cons head tail ih =>
    have laid := ih (laid_concat h head)
    rwa [List.append_assoc] at laid

/-- Nothing has been laid out at the start: a new generator has no code and nothing on its
stacks. -/
theorem laid_nil (m : Mnemonics) : Laid m [] {} where
  supported s hs := by simp at hs
  code := rfl
  stack b := by cases b <;> rfl
  closers := rfl
  notices := rfl

/-- A program that is accepted has been read as statements, all blocks are closed, and its code
and notices are those of the layout. All proofs about finished programs start from this. -/
theorem laid_of_generate {m : Mnemonics} {statements : List (List Token)}
    (h : (Generator.generate m {} statements).2 = none) :
    ∃ ss g, statements.mapM Statement.ofTokens = .ok ss ∧ Laid m ss g ∧
      (∀ b, untaken ss b = []) ∧
      (Generator.generate m {} statements).1 = g.append [.plain .halt []] := by
  obtain ⟨ss, g, hss, adds, empty, hgenerate⟩ := Generator.adds_of_generate h
  have laid : Laid m ss g := (laid_nil m).adds adds
  refine ⟨ss, g, hss, laid, fun b => ?_, hgenerate⟩
  have none := empty b
  rw [laid.stack b] at none
  exact List.map_eq_nil_iff.mp none

end Tickscript
