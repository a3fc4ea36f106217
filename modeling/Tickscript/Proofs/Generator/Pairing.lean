import Tickscript.Proofs.Generator.Translation

/-!
# `Tickscript.Proofs.Generator.Pairing`: which closer belongs to which opener

The rule is said without a stack: going through the statements in order, a closer takes the
nearest earlier opener of its own kind that no closer has taken before it. `spans` lists the
blocks that this makes, by the positions of their two ends, in the order of the closers. The two
kinds of blocks do not look at each other, so spans may cross.

`untaken` lists the openers of one kind that are left, the nearest first. The lemmas say what one
more statement at the end does to both lists; they are all that a proof by induction over the
statements needs. The head of `untaken` is what the next closer takes.
-/

set_option autoImplicit false

namespace Tickscript

/-- A block of a program: its kind and the positions of the statements that open and close it.
Positions count statements, not instructions. -/
structure Span where
  block : Block
  opener : Nat
  closer : Nat
deriving DecidableEq, Repr

/-- The statement at position `k` opens a block of the kind `b` and no span has it as its opener.
The spans are an argument, because this is asked while they are still being found. -/
def isUntaken (ss : List Statement) (taken : List Span) (b : Block) (k : Nat) : Bool :=
  ss[k]?.bind Statement.opens == some b && taken.all (·.opener != k)

/-- The span that a closer of the kind `b` at position `j` makes, if `taken` lists those of the
closers before it. The search goes from the closer towards the start of the program. -/
def nearestSpan (ss : List Statement) (taken : List Span) (j : Nat) (b : Block) : Option Span :=
  ((List.range j).reverse.find? (isUntaken ss taken b)).map fun k => ⟨b, k, j⟩

/-- The spans that the first `n` statements close. The recursion is on `n`, and each closer sees
the spans of the closers before it. -/
def spansUpTo (ss : List Statement) : Nat → List Span
  | 0 => []
  | j + 1 =>
    match (ss[j]?.bind Statement.closes).bind (nearestSpan ss (spansUpTo ss j) j) with
    | none => spansUpTo ss j
    | some span => spansUpTo ss j ++ [span]

/-- The spans of a program, in the order of their closers. A stray closer makes none, and an
opener that is never closed is in none. -/
def spans (ss : List Statement) : List Span :=
  spansUpTo ss ss.length

/-- The openers of a kind that are not taken, the nearest to the end first. This is the order of a
stack, although nothing here is pushed or popped. -/
def untaken (ss : List Statement) (b : Block) : List Nat :=
  (List.range ss.length).reverse.filter (isUntaken ss (spans ss) b)

/-- The positions of the closers of either kind, stray ones included. If all of them are closers
of spans, then none is stray. -/
def closers (ss : List Statement) : List Nat :=
  (List.range ss.length).filter fun j => (ss[j]?.bind Statement.closes).isSome

/-! ### The spans after one more statement -/

/-- Whether an earlier opener is taken does not depend on later statements, with the spans as they
are given. -/
theorem isUntaken_append {ss more : List Statement} {taken : List Span} {b : Block} {k : Nat}
    (hk : k < ss.length) : isUntaken (ss ++ more) taken b k = isUntaken ss taken b k := by
  unfold isUntaken
  rw [List.getElem?_append_left hk]

/-- What a closer takes does not depend on later statements, because it looks towards the
start. -/
theorem nearestSpan_append {ss more : List Statement} {taken : List Span} {j : Nat}
    (hj : j ≤ ss.length) : nearestSpan (ss ++ more) taken j = nearestSpan ss taken j := by
  funext b
  unfold nearestSpan
  -- As a filter, the search can be compared place by place.
  rw [← List.head?_filter, ← List.head?_filter]
  have same : (List.range j).reverse.filter (isUntaken (ss ++ more) taken b) =
      (List.range j).reverse.filter (isUntaken ss taken b) := by
    refine List.filter_congr fun k hk => isUntaken_append ?_
    have := List.mem_range.mp (List.mem_reverse.mp hk)
    omega
  rw [same]

/-- The spans of the first statements do not depend on the later ones. The induction follows
`spansUpTo`. -/
theorem spansUpTo_append {ss more : List Statement} {n : Nat} (hn : n ≤ ss.length) :
    spansUpTo (ss ++ more) n = spansUpTo ss n := by
  induction n with
  | zero => rfl
  | succ j ih =>
    unfold spansUpTo
    rw [ih (by omega), List.getElem?_append_left hn, nearestSpan_append (by omega)]

/-- A closer at the end takes the head of the openers that are left. This is why `untaken` has the
nearest first. -/
theorem nearestSpan_length (ss : List Statement) (b : Block) :
    nearestSpan ss (spans ss) ss.length b =
      (untaken ss b).head?.map fun k => ⟨b, k, ss.length⟩ := by
  unfold nearestSpan untaken
  rw [List.head?_filter]

/-- The last round of `spansUpTo`, for one more statement. All facts about spans below come from
this equation, by what the last statement closes. -/
theorem spans_concat (ss : List Statement) (s : Statement) :
    spans (ss ++ [s]) =
      match s.closes.bind fun b => (untaken ss b).head?.map fun k => Span.mk b k ss.length with
      | none => spans ss
      | some span => spans ss ++ [span] := by
  have last : spans (ss ++ [s]) =
      match ((ss ++ [s])[ss.length]?.bind Statement.closes).bind
        (nearestSpan (ss ++ [s]) (spansUpTo (ss ++ [s]) ss.length) ss.length) with
      | none => spansUpTo (ss ++ [s]) ss.length
      | some span => spansUpTo (ss ++ [s]) ss.length ++ [span] := by
    rw [spans, List.length_append, List.length_singleton, spansUpTo]
  have nearest := funext (nearestSpan_length ss)
  rw [last, spansUpTo_append (Nat.le_refl _), nearestSpan_append (Nat.le_refl _),
    List.getElem?_concat_length, Option.bind_some, ← spans, nearest]

/-- A statement that closes nothing makes no span. It may be an opener: an opener makes a span
only once it is taken. -/
theorem spans_concat_of_closes_eq_none {ss : List Statement} {s : Statement}
    (h : s.closes = none) : spans (ss ++ [s]) = spans ss := by
  rw [spans_concat, h]
  rfl

/-- A closer makes a span with the nearest opener that is left. The span comes last, because spans
are in the order of their closers. -/
theorem spans_concat_of_closes {ss : List Statement} {s : Statement} {b : Block} {k : Nat}
    {rest : List Nat} (h : s.closes = some b) (top : untaken ss b = k :: rest) :
    spans (ss ++ [s]) = spans ss ++ [⟨b, k, ss.length⟩] := by
  rw [spans_concat, h, Option.bind_some, top]
  rfl

/-- Later statements only make spans that end later. So the spans of a program start with those of
any prefix of it. -/
theorem spans_append (before after : List Statement) :
    ∃ more, spans (before ++ after) = spans before ++ more ∧
      ∀ span ∈ more, before.length ≤ span.closer := by
  induction after generalizing before with
  | nil => exact ⟨[], by simp, by simp⟩
  -- The first of the later statements goes over to the earlier ones.
  | cons s after ih =>
    obtain ⟨more, hspans, hmore⟩ := ih (before ++ [s])
    rw [List.append_assoc, List.singleton_append] at hspans
    have later : ∀ span ∈ more, before.length ≤ span.closer := by
      intro span hspan
      have := hmore span hspan
      rw [List.length_append, List.length_singleton] at this
      omega
    rw [spans_concat] at hspans
    split at hspans
    · exact ⟨more, hspans, later⟩
    · rename_i span hlast
      obtain ⟨b, -, htop⟩ := Option.bind_eq_some_iff.mp hlast
      obtain ⟨k, -, rfl⟩ := Option.map_eq_some_iff.mp htop
      refine ⟨⟨b, k, before.length⟩ :: more, by rw [hspans, List.append_assoc]; rfl, ?_⟩
      intro other hother
      rcases List.mem_cons.mp hother with rfl | hother
      · exact Nat.le_refl _
      · exact later other hother

/-- One more statement is a closer or it is not, and if it is then its position comes last. -/
theorem closers_concat (ss : List Statement) (s : Statement) :
    closers (ss ++ [s]) = closers ss ++ if s.closes.isSome then [ss.length] else [] := by
  unfold closers
  rw [List.length_append, List.length_singleton, List.range_succ, List.filter_append,
    List.filter_cons, List.filter_nil, List.getElem?_concat_length, Option.bind_some]
  congr 1
  refine List.filter_congr fun j hj => ?_
  rw [List.getElem?_append_left (List.mem_range.mp hj)]

/-! ### What a span is -/

/-- A span goes from an opener to a later closer of its kind, and both are statements of the
program. -/
structure Span.Fits (ss : List Statement) (span : Span) : Prop where
  lt : span.opener < span.closer
  lt_length : span.closer < ss.length
  opens : ss[span.opener]?.bind Statement.opens = some span.block
  closes : ss[span.closer]?.bind Statement.closes = some span.block

/-- The test of `isUntaken` as a proposition: an opener of the kind that no span has as its
own. -/
theorem isUntaken_iff {ss : List Statement} {taken : List Span} {b : Block} {k : Nat} :
    isUntaken ss taken b k = true ↔
      ss[k]?.bind Statement.opens = some b ∧ ∀ span ∈ taken, span.opener ≠ k := by
  simp [isUntaken]

/-- An opener is left exactly if it is in the program, is of the kind, and no span has it as its
opener. -/
theorem mem_untaken {ss : List Statement} {b : Block} {k : Nat} :
    k ∈ untaken ss b ↔
      k < ss.length ∧ ss[k]?.bind Statement.opens = some b ∧
        ∀ span ∈ spans ss, span.opener ≠ k := by
  unfold untaken
  rw [List.mem_filter, isUntaken_iff, List.mem_reverse, List.mem_range]

/-- A span that a closer makes goes from an opener that was not taken to this closer. That it is
the nearest one is not needed for what follows. -/
theorem nearestSpan_eq_some {ss : List Statement} {taken : List Span} {j : Nat} {b : Block}
    {span : Span} (h : nearestSpan ss taken j b = some span) :
    span.block = b ∧ span.closer = j ∧ span.opener < j ∧
      ss[span.opener]?.bind Statement.opens = some b ∧
      ∀ other ∈ taken, other.opener ≠ span.opener := by
  obtain ⟨k, hk, rfl⟩ := Option.map_eq_some_iff.mp h
  have hmem := List.mem_of_find?_eq_some hk
  have huntaken := isUntaken_iff.mp (List.find?_some hk)
  exact ⟨rfl, rfl, List.mem_range.mp (List.mem_reverse.mp hmem), huntaken⟩

/-- Every span goes from an opener to a later closer of its kind, and its closer is among the
statements that were looked at. -/
theorem fits_of_mem_spansUpTo {ss : List Statement} {n : Nat} {span : Span}
    (h : span ∈ spansUpTo ss n) : span.Fits ss ∧ span.closer < n := by
  induction n with
  | zero => simp [spansUpTo] at h
  | succ j ih =>
    unfold spansUpTo at h
    split at h
    · exact ⟨(ih h).1, Nat.lt_succ_of_lt (ih h).2⟩
    · rename_i last hlast
      rcases List.mem_append.mp h with h | h
      · exact ⟨(ih h).1, Nat.lt_succ_of_lt (ih h).2⟩
      · rw [List.mem_singleton.mp h]
        obtain ⟨b, hcloses, hnearest⟩ := Option.bind_eq_some_iff.mp hlast
        obtain ⟨rfl, rfl, hlt, hopens, -⟩ := nearestSpan_eq_some hnearest
        obtain ⟨s, hs, -⟩ := Option.bind_eq_some_iff.mp hcloses
        exact ⟨⟨hlt, (List.getElem?_eq_some_iff.mp hs).1, hopens, hcloses⟩, Nat.lt_succ_self _⟩

/-- Every span of a program fits into it, as `fits_of_mem_spansUpTo` says for all statements. -/
theorem fits_of_mem_spans {ss : List Statement} {span : Span} (h : span ∈ spans ss) :
    span.Fits ss :=
  (fits_of_mem_spansUpTo h).1

/-- A span is known by its opener and by its closer. No opener is taken twice, and no closer takes
two openers. -/
theorem span_eq_of_mem_spansUpTo {ss : List Statement} {n : Nat} {p q : Span}
    (hp : p ∈ spansUpTo ss n) (hq : q ∈ spansUpTo ss n)
    (h : p.opener = q.opener ∨ p.closer = q.closer) : p = q := by
  induction n with
  | zero => simp [spansUpTo] at hp
  | succ j ih =>
    unfold spansUpTo at hp hq
    split at hp
    · rename_i hnone
      rw [hnone] at hq
      exact ih hp hq
    · rename_i last hlast
      rw [hlast] at hq
      obtain ⟨b, hcloses, hnearest⟩ := Option.bind_eq_some_iff.mp hlast
      obtain ⟨-, hcloser, -, -, hfresh⟩ := nearestSpan_eq_some hnearest
      -- The new span shares neither end with an older one: its opener was not taken, and the
      -- older closers come before its own.
      have apart : ∀ old ∈ spansUpTo ss j,
          ¬ (old.opener = last.opener ∨ old.closer = last.closer) := by
        rintro old hold (heq | heq)
        · exact hfresh old hold heq
        · have := (fits_of_mem_spansUpTo hold).2
          omega
      rcases List.mem_append.mp hp with hp | hp <;> rcases List.mem_append.mp hq with hq | hq
      · exact ih hp hq
      · rw [List.mem_singleton.mp hq] at h
        exact absurd h (apart p hp)
      · rw [List.mem_singleton.mp hp] at h
        exact absurd (h.imp Eq.symm Eq.symm) (apart q hq)
      · rw [List.mem_singleton.mp hp, List.mem_singleton.mp hq]

/-! ### What is left after one more statement -/

/-- The openers that are left, by the spans that one more statement leads to: perhaps the new one,
and those before that are still not taken. -/
theorem untaken_concat (ss : List Statement) (s : Statement) (b : Block) :
    untaken (ss ++ [s]) b =
      [ss.length].filter (isUntaken (ss ++ [s]) (spans (ss ++ [s])) b) ++
        (List.range ss.length).reverse.filter (isUntaken ss (spans (ss ++ [s])) b) := by
  unfold untaken
  rw [List.length_append, List.length_singleton, List.range_succ, List.reverse_append,
    List.reverse_singleton, List.filter_append]
  congr 1
  exact List.filter_congr fun k hk =>
    isUntaken_append (List.mem_range.mp (List.mem_reverse.mp hk))

/-- The last statement is never taken, so it is left exactly if it opens a block. A closer would
have to come behind it. -/
theorem isUntaken_last {ss : List Statement} {s : Statement} {b : Block} (h : s.closes = none) :
    isUntaken (ss ++ [s]) (spans (ss ++ [s])) b ss.length = (s.opens == some b) := by
  have fresh : (spans (ss ++ [s])).all (·.opener != ss.length) = true := by
    rw [spans_concat_of_closes_eq_none h, List.all_eq_true]
    intro span hspan
    have fits := fits_of_mem_spans hspan
    exact bne_iff_ne.mpr (Nat.ne_of_lt (Nat.lt_trans fits.lt fits.lt_length))
  rw [isUntaken, fresh, List.getElem?_concat_length, Option.bind_some, Bool.and_true]

/-- A statement that is no end of a block leaves what was left, of either kind. -/
theorem untaken_concat_plain {ss : List Statement} {s : Statement} (hopens : s.opens = none)
    (hcloses : s.closes = none) : untaken (ss ++ [s]) = untaken ss := by
  funext b
  rw [untaken_concat, List.filter_cons, isUntaken_last hcloses, hopens,
    spans_concat_of_closes_eq_none hcloses]
  rfl

/-- An opener is left, in front of those of its kind. It is pushed, in the words of a stack. -/
theorem untaken_concat_opener {ss : List Statement} {s : Statement} {b : Block}
    (hopens : s.opens = some b) : untaken (ss ++ [s]) b = ss.length :: untaken ss b := by
  have hcloses := Statement.closes_of_opens hopens
  rw [untaken_concat, List.filter_cons, isUntaken_last hcloses, hopens,
    spans_concat_of_closes_eq_none hcloses]
  simp [untaken]

/-- An opener does not change what is left of the other kind, so the kinds can cross. -/
theorem untaken_concat_opener_of_ne {ss : List Statement} {s : Statement} {b other : Block}
    (hopens : s.opens = some b) (hne : other ≠ b) :
    untaken (ss ++ [s]) other = untaken ss other := by
  have hcloses := Statement.closes_of_opens hopens
  rw [untaken_concat, List.filter_cons, isUntaken_last hcloses, hopens,
    spans_concat_of_closes_eq_none hcloses]
  simp [untaken, Ne.symm hne]

/-- A closer takes its opener out of all that is left. For the other kind this takes out nothing,
and for its own kind it takes out the head. -/
theorem untaken_concat_closer_eq_filter {ss : List Statement} {s : Statement}
    {b : Block} {k : Nat} {rest : List Nat} (hcloses : s.closes = some b)
    (top : untaken ss b = k :: rest) (other : Block) :
    untaken (ss ++ [s]) other = (untaken ss other).filter (k != ·) := by
  have hopens := Statement.opens_of_closes hcloses
  have last : isUntaken (ss ++ [s]) (spans (ss ++ [s])) other ss.length = false := by
    rw [isUntaken, List.getElem?_concat_length, Option.bind_some, hopens]
    rfl
  rw [untaken_concat, List.filter_cons, last, spans_concat_of_closes hcloses top, untaken,
    List.filter_filter]
  refine List.filter_congr fun i _ => ?_
  simp only [isUntaken, List.all_append, List.all_cons, List.all_nil, Bool.and_true]
  rw [Bool.and_comm (k != i), Bool.and_assoc]

/-- No opener is left twice, since positions are listed once. -/
theorem nodup_untaken (ss : List Statement) (b : Block) : (untaken ss b).Nodup :=
  (List.pairwise_reverse.mpr (List.nodup_range.imp Ne.symm)).filter _

/-- A closer leaves the rest of the openers of its kind. It pops, in the words of a stack. -/
theorem untaken_concat_closer {ss : List Statement} {s : Statement} {b : Block} {k : Nat}
    {rest : List Nat} (hcloses : s.closes = some b) (top : untaken ss b = k :: rest) :
    untaken (ss ++ [s]) b = rest := by
  -- The filter takes `k` out once, so what it leaves is the tail only if `k` is not there again.
  have nodup := nodup_untaken ss b
  rw [top, List.nodup_cons] at nodup
  rw [untaken_concat_closer_eq_filter hcloses top, top, List.filter_cons]
  simp only [bne_self_eq_false, Bool.false_eq_true, if_false]
  refine List.filter_eq_self.mpr fun i hi => bne_iff_ne.mpr ?_
  rintro rfl
  exact nodup.1 hi

/-- A closer does not change what is left of the other kind: what it takes out is an opener of its
own kind, and each opener is of one kind. -/
theorem untaken_concat_closer_of_ne {ss : List Statement} {s : Statement}
    {b other : Block} {k : Nat} {rest : List Nat} (hcloses : s.closes = some b)
    (top : untaken ss b = k :: rest) (hne : other ≠ b) :
    untaken (ss ++ [s]) other = untaken ss other := by
  have hk : ss[k]?.bind Statement.opens = some b := (mem_untaken.mp (by rw [top]; simp)).2.1
  rw [untaken_concat_closer_eq_filter hcloses top]
  refine List.filter_eq_self.mpr fun i hi => bne_iff_ne.mpr ?_
  rintro rfl
  have := (mem_untaken.mp hi).2.1
  rw [hk] at this
  exact hne (Option.some.inj this).symm

end Tickscript
