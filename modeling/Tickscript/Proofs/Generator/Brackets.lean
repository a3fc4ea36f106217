import Mathlib.Data.List.Induction
import Tickscript.Proofs.Generator.Layout

/-!
# `Tickscript.Proofs.Generator.Brackets`: pairs and numbers

When does every closer take an opener, and when is no opener left? Openers and closers of one kind
must make a bracket word (`Bracketed`): no prefix has more closers than openers, and the whole has
as many of either.

`IsStray` is a closer that takes no opener. As long as there is none, the openers that are left
are the openers less the closers (`length_untaken`), so a closer is stray where a prefix has too
many closers for the first time (`not_isStray_iff`). The two kinds are counted apart. A stray
closer of one kind leaves the other kind as it was (`untaken_concat_of_stray`).
-/

set_option autoImplicit false

namespace Tickscript

/-! ### Closers that take no opener -/

/-- The closer of the kind `b` at position `j` finds no opener of its kind that is left. The spans
of a program are its openers with the closers that took them, so a stray closer ends no span. -/
def IsStray (ss : List Statement) (b : Block) (j : Nat) : Prop :=
  ss[j]?.bind Statement.closes = some b ∧ ∀ span ∈ spans ss, span.closer ≠ j

/-- A stray closer is one of the statements. This bounds the position where it is looked for in a
program that goes on. -/
theorem IsStray.lt_length {ss : List Statement} {b : Block} {j : Nat} (h : IsStray ss b j) :
    j < ss.length := by
  obtain ⟨s, hs, -⟩ := Option.bind_eq_some_iff.mp h.1
  exact (List.getElem?_eq_some_iff.mp hs).1

/-- Whether a closer is stray does not depend on later statements. Spans that come from later
statements have later closers (`spans_append`). -/
theorem isStray_append {before : List Statement} {j : Nat} (hj : j < before.length)
    (after : List Statement) (b : Block) :
    IsStray (before ++ after) b j ↔ IsStray before b j := by
  obtain ⟨more, hspans, hmore⟩ := spans_append before after
  unfold IsStray
  rw [List.getElem?_append_left hj, hspans]
  constructor
  · rintro ⟨hcloses, none⟩
    exact ⟨hcloses, fun span hspan => none span (List.mem_append_left _ hspan)⟩
  · rintro ⟨hcloses, none⟩
    refine ⟨hcloses, fun span hspan => ?_⟩
    rcases List.mem_append.mp hspan with early | late
    · exact none span early
    · have := hmore span late
      omega

/-- A closer without an opener to take makes no span. The spans are those of the statements before
it, as if the closer were not there. -/
theorem spans_concat_of_stray {ss : List Statement} {s : Statement} {b : Block}
    (hcloses : s.closes = some b) (none : untaken ss b = []) : spans (ss ++ [s]) = spans ss := by
  rw [spans_concat, hcloses, Option.bind_some, none]
  rfl

/-- A closer without an opener to take leaves what was left, of either kind. So counting one kind
can go on behind a stray closer of the other kind. -/
theorem untaken_concat_of_stray {ss : List Statement} {s : Statement} {b : Block}
    (hcloses : s.closes = some b) (none : untaken ss b = []) :
    untaken (ss ++ [s]) = untaken ss := by
  funext other
  have last : isUntaken (ss ++ [s]) (spans (ss ++ [s])) other ss.length = false := by
    rw [isUntaken, List.getElem?_concat_length, Option.bind_some,
      Statement.opens_of_closes hcloses]
    rfl
  rw [untaken_concat, List.filter_cons, last, spans_concat_of_stray hcloses none]
  rfl

/-- The last statement is a stray closer exactly if no opener of its kind is left before it. This
ties `IsStray`, which speaks of the whole program, to what a generator sees at that point. -/
theorem isStray_concat_length {ss : List Statement} {s : Statement} {b : Block} :
    IsStray (ss ++ [s]) b ss.length ↔ s.closes = some b ∧ untaken ss b = [] := by
  unfold IsStray
  rw [List.getElem?_concat_length, Option.bind_some]
  refine and_congr_right fun hcloses => ?_
  cases top : untaken ss b with
  | nil =>
    refine iff_of_true (fun span hspan => ?_) rfl
    rw [spans_concat_of_stray hcloses top] at hspan
    exact Nat.ne_of_lt (fits_of_mem_spans hspan).lt_length
  -- The closer takes the opener `k`, and then the span of the two ends at it.
  | cons k rest =>
    refine iff_of_false (fun none => ?_) (List.cons_ne_nil k rest)
    rw [spans_concat_of_closes hcloses top] at none
    exact none ⟨b, k, ss.length⟩ (by simp) rfl

/-- No closer of a longer program is stray exactly if none of the shorter one is and the last
statement is not. It is the step of the inductions below. -/
theorem not_isStray_concat {ss : List Statement} {s : Statement} {b : Block} :
    (∀ j, ¬IsStray (ss ++ [s]) b j) ↔
      (∀ j, ¬IsStray ss b j) ∧ ¬(s.closes = some b ∧ untaken ss b = []) := by
  constructor
  · intro none
    refine ⟨fun j stray => ?_, fun last => none ss.length (isStray_concat_length.mpr last)⟩
    exact none j ((isStray_append stray.lt_length [s] b).mpr stray)
  · rintro ⟨none, last⟩ j stray
    have hlt := stray.lt_length
    rw [List.length_append, List.length_singleton] at hlt
    by_cases hj : j < ss.length
    · exact none j ((isStray_append hj [s] b).mp stray)
    · obtain rfl : j = ss.length := by omega
      exact last (isStray_concat_length.mp stray)

/-- When the code of a program is laid out, none of its closers is stray: the generator has
refused every closer that found nothing on the stack, and `Laid` keeps that all closers end a
span. -/
theorem Laid.not_isStray {m : Mnemonics} {ss : List Statement} {g : Generator} (h : Laid m ss g)
    (b : Block) (j : Nat) : ¬IsStray ss b j := by
  rintro ⟨hcloses, none⟩
  obtain ⟨s, hs, -⟩ := Option.bind_eq_some_iff.mp hcloses
  have mem : j ∈ Tickscript.closers ss := by
    refine List.mem_filter.mpr ⟨List.mem_range.mpr (List.getElem?_eq_some_iff.mp hs).1, ?_⟩
    rw [hcloses]
    rfl
  rw [← h.closers] at mem
  obtain ⟨span, hspan, hcloser⟩ := List.mem_map.mp mem
  exact none span hspan hcloser

/-! ### Counting openers and closers -/

/-- How many statements open a block of the kind `b`. Only the numbers matter for a bracket word,
not which opener belongs to which closer. -/
def openerCount (b : Block) (ss : List Statement) : Nat :=
  ss.countP (·.opens == some b)

/-- How many statements close a block of the kind `b`, whether they take an opener or are
stray. -/
def closerCount (b : Block) (ss : List Statement) : Nat :=
  ss.countP (·.closes == some b)

/-- The statements that open and close blocks of the kind `b` make a bracket word:

- `prefixes`: no prefix has more closers than openers;
- `totals`: the whole has as many closers as openers.

Statements of the other kind, and those that are no end of a block, do not count. -/
structure Bracketed (b : Block) (ss : List Statement) : Prop where
  prefixes : ∀ n, closerCount b (ss.take n) ≤ openerCount b (ss.take n)
  totals : closerCount b ss = openerCount b ss

/-- One more statement adds to the openers of a kind if it is one. The condition is left in the
statement of the lemma, so that one rewrite serves all the cases below. -/
theorem openerCount_concat (b : Block) (ss : List Statement) (s : Statement) :
    openerCount b (ss ++ [s]) = openerCount b ss + if s.opens = some b then 1 else 0 := by
  simp [openerCount, List.countP_append, List.countP_singleton]

/-- One more statement adds to the closers of a kind if it is one, as in `openerCount_concat`. -/
theorem closerCount_concat (b : Block) (ss : List Statement) (s : Statement) :
    closerCount b (ss ++ [s]) = closerCount b ss + if s.closes = some b then 1 else 0 := by
  simp [closerCount, List.countP_append, List.countP_singleton]

/-- The prefixes of a longer program are those of the shorter one and the whole. With this a fact
about all prefixes is proved by induction on the program. -/
theorem prefixes_concat {b : Block} {ss : List Statement} {s : Statement} :
    (∀ n, closerCount b ((ss ++ [s]).take n) ≤ openerCount b ((ss ++ [s]).take n)) ↔
      (∀ n, closerCount b (ss.take n) ≤ openerCount b (ss.take n)) ∧
        closerCount b (ss ++ [s]) ≤ openerCount b (ss ++ [s]) := by
  have short : ∀ n ≤ ss.length, (ss ++ [s]).take n = ss.take n :=
    fun n hn => List.take_append_of_le_length hn
  have long : ∀ n, ss.length < n → (ss ++ [s]).take n = ss ++ [s] := by
    intro n hn
    exact List.take_of_length_le (by simp; omega)
  constructor
  · intro h
    refine ⟨fun n => ?_, by simpa [long _ (Nat.lt_succ_self _)] using h (ss.length + 1)⟩
    by_cases hn : n ≤ ss.length
    · rw [← short n hn]
      exact h n
    · -- Behind the end of the shorter program, its prefix is all of it.
      rw [List.take_of_length_le (by omega), ← List.take_length (l := ss),
        ← short _ (Nat.le_refl _)]
      exact h ss.length
  · rintro ⟨h, whole⟩ n
    by_cases hn : n ≤ ss.length
    · rw [short n hn]
      exact h n
    · rw [long n (by omega)]
      exact whole

/-- While no closer of a kind is stray, the openers of that kind that are left are as many as
there are more openers than closers. The induction is from the back, because a closer is matched
with openers before it. -/
theorem length_untaken {b : Block} {ss : List Statement} (none : ∀ j, ¬IsStray ss b j) :
    (untaken ss b).length + closerCount b ss = openerCount b ss := by
  induction ss using List.reverseRecOn with
  | nil => rfl
  | append_singleton ss s ih =>
    obtain ⟨before, last⟩ := not_isStray_concat.mp none
    have ih := ih before
    rw [openerCount_concat, closerCount_concat]
    -- An opener adds to what is left, and a closer of this kind takes from it.
    cases hopens : s.opens with
    | some opened =>
      rw [Statement.closes_of_opens hopens]
      by_cases hb : opened = b
      · subst hb
        rw [untaken_concat_opener hopens]
        simp
        omega
      · rw [untaken_concat_opener_of_ne hopens (Ne.symm hb)]
        simpa [hb] using ih
    | none =>
      cases hcloses : s.closes with
      | none =>
        rw [untaken_concat_plain hopens hcloses]
        simpa using ih
      | some closed =>
        by_cases hb : closed = b
        · subst hb
          cases top : untaken ss closed with
          | nil => exact absurd ⟨hcloses, top⟩ last
          | cons k rest =>
            rw [untaken_concat_closer hcloses top]
            rw [top, List.length_cons] at ih
            simp
            omega
        · -- A closer of the other kind may be stray or not; this kind does not notice.
          have same : untaken (ss ++ [s]) b = untaken ss b := by
            cases top : untaken ss closed with
            | nil => rw [untaken_concat_of_stray hcloses top]
            | cons k rest => exact untaken_concat_closer_of_ne hcloses top (Ne.symm hb)
          rw [same]
          simpa [hb] using ih

/-- No closer of a kind is stray exactly if no prefix has more closers than openers of that kind.
Here the stack of the generator turns into numbers: `length_untaken` says how many openers are
left before each closer. -/
theorem not_isStray_iff {b : Block} {ss : List Statement} :
    (∀ j, ¬IsStray ss b j) ↔ ∀ n, closerCount b (ss.take n) ≤ openerCount b (ss.take n) := by
  induction ss using List.reverseRecOn with
  | nil => simp [IsStray, closerCount]
  | append_singleton ss s ih =>
    rw [not_isStray_concat, prefixes_concat, ← ih]
    refine and_congr_right fun none => ?_
    -- Both sides ask whether a closer at the end comes to an opener that is left.
    have left := length_untaken none
    rw [openerCount_concat, closerCount_concat, ← List.length_eq_zero_iff]
    by_cases hcloses : s.closes = some b
    · simp only [hcloses, Statement.opens_of_closes hcloses, true_and, if_true,
        reduceCtorEq, if_false]
      omega
    · simp only [hcloses, false_and, not_false_eq_true, if_false, true_iff]
      omega

/-- A kind is bracketed exactly if none of its closers is stray and none of its openers is left.
The prefixes account for the closers, and the totals for the openers. -/
theorem bracketed_iff {b : Block} {ss : List Statement} :
    Bracketed b ss ↔ (∀ j, ¬IsStray ss b j) ∧ untaken ss b = [] := by
  constructor
  · intro h
    have none := not_isStray_iff.mpr h.prefixes
    have left := length_untaken none
    rw [h.totals] at left
    exact ⟨none, List.length_eq_zero_iff.mp (by omega)⟩
  · rintro ⟨none, left⟩
    have count := length_untaken none
    rw [left, List.length_nil] at count
    exact ⟨not_isStray_iff.mp none, by omega⟩

end Tickscript
