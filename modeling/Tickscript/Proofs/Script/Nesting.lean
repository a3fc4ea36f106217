import Tickscript.Proofs.Generator.Targets
import Tickscript.Proofs.Script.Evaluation

/-!
# `Tickscript.Proofs.Script.Nesting`: programs without crossing blocks are scripts

A list of statements in which every block is closed and no two blocks cross is the list of
statements of a script (`exists_script`). The proof goes through one stack for both kinds of
blocks. `nestedFrom` reads the statements with such a stack, on which a closer must find its own
kind. If no spans cross it always does (`nestedFrom_of_stacked`): an opener of another kind on top
would be closed later, and its span would cross the one that is closed now.
-/

set_option autoImplicit false

namespace Tickscript

/-- Of two blocks, one ends before the other begins or lies inside it. Blocks of the same kind are
never crossing, so this is about conditionals and loops. -/
def Uncrossed (ss : List Statement) : Prop :=
  ∀ p ∈ spans ss, ∀ q ∈ spans ss,
    ¬(p.opener < q.opener ∧ q.opener < p.closer ∧ p.closer < q.closer)

/-- A program has finitely many spans, and they can be compared two by two. -/
instance (ss : List Statement) : Decidable (Uncrossed ss) :=
  inferInstanceAs (Decidable (∀ p ∈ spans ss, ∀ q ∈ spans ss,
    ¬(p.opener < q.opener ∧ q.opener < p.closer ∧ p.closer < q.closer)))

/-- Whether statements close the blocks on a stack, the latest first, and all blocks that they
open themselves. The generator has a stack for each kind instead, which is why blocks may
cross. -/
def nestedFrom : List Block → List Statement → Bool
  | stack, [] => stack.isEmpty
  | stack, s :: ss =>
    match s.opens, s.closes with
    | some b, _ => nestedFrom (b :: stack) ss
    | none, some b =>
      match stack with
      | top :: below => top == b && nestedFrom below ss
      | [] => false
    | none, none => nestedFrom stack ss

/-! ### From one stack to a script -/

/-- A statement that is no end of a block is passed over. -/
theorem nestedFrom_plain {s : Statement} {ss : List Statement} {stack : List Block}
    (hopens : s.opens = none) (hcloses : s.closes = none) :
    nestedFrom stack (s :: ss) = nestedFrom stack ss := by
  rw [nestedFrom, hopens, hcloses]

/-- An opener goes on the stack. -/
theorem nestedFrom_opener {s : Statement} {ss : List Statement} {stack : List Block} {b : Block}
    (hopens : s.opens = some b) : nestedFrom stack (s :: ss) = nestedFrom (b :: stack) ss := by
  rw [nestedFrom, hopens]

/-- A closer finds its own kind on top of the stack, and what follows is nested under the rest. -/
theorem nestedFrom_closer {s : Statement} {ss : List Statement} {stack : List Block} {b : Block}
    (hcloses : s.closes = some b) :
    nestedFrom stack (s :: ss) = true ↔
      ∃ below, stack = b :: below ∧ nestedFrom below ss = true := by
  rw [nestedFrom, Statement.opens_of_closes hcloses, hcloses]
  cases stack with
  | nil => simp
  | cons top below =>
    simp only [Bool.and_eq_true, beq_iff_eq, List.cons.injEq]
    constructor
    · rintro ⟨rfl, nested⟩
      exact ⟨below, ⟨rfl, rfl⟩, nested⟩
    · rintro ⟨_, ⟨rfl, rfl⟩, nested⟩
      exact ⟨rfl, nested⟩

/-- The first statements are those of a script, and what is left is nested under the stack and
starts with a closer, if with anything. The closer is that of a block around them. -/
def StartsWithScript (stack : List Block) (ss : List Statement) : Prop :=
  ∃ (script : Script) (rest : List Statement), ss = script.statements ++ rest ∧
    nestedFrom stack rest = true ∧ ∀ s after, rest = s :: after → s.closes ≠ none

/-- In front of a closer there is the empty script, which is how the body of a block ends. -/
theorem startsWithScript_of_closer {s : Statement} {ss : List Statement} {stack : List Block}
    {b : Block} (hcloses : s.closes = some b) (nested : nestedFrom stack (s :: ss) = true) :
    StartsWithScript stack (s :: ss) := by
  refine ⟨.done, s :: ss, rfl, nested, ?_⟩
  intro head after heq
  cases heq
  simp [hcloses]

/-- The body of a block, its closer and a script behind it. The statements behind the closer are
fewer than those behind the opener, which is what the induction below needs. -/
theorem exists_body {b : Block} {stack : List Block} {ss : List Statement}
    (first : StartsWithScript (b :: stack) ss)
    (next : ∀ after, after.length < ss.length → nestedFrom stack after = true →
      StartsWithScript stack after) :
    ∃ (body script : Script) (closer : Statement) (rest : List Statement),
      closer.closes = some b ∧ ss = body.statements ++ closer :: (script.statements ++ rest) ∧
        nestedFrom stack rest = true ∧ ∀ s after, rest = s :: after → s.closes ≠ none := by
  obtain ⟨body, left, rfl, nested, starts⟩ := first
  cases left with
  | nil => cases nested
  | cons closer after =>
    obtain ⟨c, hcloses⟩ := Option.ne_none_iff_exists'.mp (starts closer after rfl)
    obtain ⟨below, hstack, nested⟩ := (nestedFrom_closer hcloses).mp nested
    cases hstack
    obtain ⟨script, rest, rfl, nested, starts⟩ :=
      next after (by simp only [List.length_append, List.length_cons]; omega) nested
    exact ⟨body, script, closer, rest, hcloses, rfl, nested, starts⟩

/-- Statements that are nested under a stack start with those of a script. There is one case for
each statement, and blocks take the body and what follows it from two uses of the hypothesis. -/
theorem startsWithScript_of_nestedFrom {n : Nat} {ss : List Statement} {stack : List Block}
    (hn : ss.length < n) (nested : nestedFrom stack ss = true) : StartsWithScript stack ss := by
  -- The induction is on a bound of the length: the script behind a block starts far down the
  -- list.
  induction n generalizing ss stack with
  | zero => omega
  | succ n ih =>
    cases ss with
    | nil => exact ⟨.done, [], rfl, nested, fun _ _ heq => by cases heq⟩
    | cons s ss =>
      rw [List.length_cons] at hn
      have shorter : ∀ after, after.length < ss.length → nestedFrom stack after = true →
          StartsWithScript stack after := fun after hlt => ih (by omega)
      cases s with
      | ignored line words =>
        rw [nestedFrom_plain rfl rfl] at nested
        obtain ⟨script, rest, rfl, left, starts⟩ := ih (by omega) nested
        exact ⟨.ignored line words script, rest, rfl, left, starts⟩
      | assign dest first chain =>
        rw [nestedFrom_plain rfl rfl] at nested
        obtain ⟨script, rest, rfl, left, starts⟩ := ih (by omega) nested
        exact ⟨.assign dest first chain script, rest, rfl, left, starts⟩
      | print value device =>
        rw [nestedFrom_plain rfl rfl] at nested
        obtain ⟨script, rest, rfl, left, starts⟩ := ih (by omega) nested
        exact ⟨.print value device script, rest, rfl, left, starts⟩
      | openConditional line test =>
        rw [nestedFrom_opener rfl] at nested
        obtain ⟨body, script, closer, rest, hcloses, rfl, left, starts⟩ :=
          exists_body (ih (by omega) nested) shorter
        cases closer with
        | closeConditional closing =>
          refine ⟨.conditional line test body closing script, rest, ?_, left, starts⟩
          simp [Script.statements]
        | _ => cases hcloses
      | openLoop line counter start test step =>
        rw [nestedFrom_opener rfl] at nested
        obtain ⟨body, script, closer, rest, hcloses, rfl, left, starts⟩ :=
          exists_body (ih (by omega) nested) shorter
        cases closer with
        | closeLoop closing =>
          refine ⟨.loop line counter start test step body closing script, rest, ?_, left, starts⟩
          simp [Script.statements]
        | _ => cases hcloses
      | closeConditional line => exact startsWithScript_of_closer rfl nested
      | closeLoop line => exact startsWithScript_of_closer rfl nested

/-! ### From spans to one stack -/

/-- One stack for the openers of both kinds that are left, with their positions, the nearest on
top. -/
structure Stacked (ss : List Statement) (stack : List (Nat × Block)) : Prop where
  sorted : stack.Pairwise fun p q => q.1 < p.1
  mem : ∀ k b, (k, b) ∈ stack ↔ k ∈ untaken ss b

/-- A statement that is no end of a block leaves the stack as it is, because no opener is added or
taken. -/
theorem Stacked.plain {ss : List Statement} {stack : List (Nat × Block)} (h : Stacked ss stack)
    {s : Statement} (hopens : s.opens = none) (hcloses : s.closes = none) :
    Stacked (ss ++ [s]) stack :=
  ⟨h.sorted, by rw [untaken_concat_plain hopens hcloses]; exact h.mem⟩

/-- An opener goes on top. Its position is behind all others, so the order is kept. -/
theorem Stacked.opener {ss : List Statement} {stack : List (Nat × Block)} (h : Stacked ss stack)
    {s : Statement} {b : Block} (hopens : s.opens = some b) :
    Stacked (ss ++ [s]) ((ss.length, b) :: stack) := by
  refine ⟨List.pairwise_cons.mpr ⟨fun p hp => ?_, h.sorted⟩, fun k c => ?_⟩
  · exact (mem_untaken.mp ((h.mem p.1 p.2).mp hp)).1
  · rw [List.mem_cons, h.mem, Prod.mk.injEq]
    by_cases hc : c = b
    · subst hc
      rw [untaken_concat_opener hopens, List.mem_cons]
      simp
    · rw [untaken_concat_opener_of_ne hopens hc]
      simp [hc]

/-- A closer takes its opener away, which is on top. The nearest opener of its kind is the one
that the generator takes, too. -/
theorem Stacked.closer {ss : List Statement} {k : Nat} {b : Block} {below : List (Nat × Block)}
    (h : Stacked ss ((k, b) :: below)) {s : Statement} {rest : List Nat}
    (hcloses : s.closes = some b) (top : untaken ss b = k :: rest) :
    Stacked (ss ++ [s]) below := by
  obtain ⟨above, sorted⟩ := List.pairwise_cons.mp h.sorted
  refine ⟨sorted, fun i c => ?_⟩
  rw [untaken_concat_closer_eq_filter hcloses top, List.mem_filter, ← h.mem, List.mem_cons]
  constructor
  · intro hi
    exact ⟨Or.inr hi, bne_iff_ne.mpr (Nat.ne_of_gt (above _ hi))⟩
  · rintro ⟨heq | hi, hne⟩
    · cases heq
      simp at hne
    · exact hi

/-- The span that a closer makes stays, whatever comes behind it. Spans are never taken back. -/
theorem mem_spans_of_closer {before : List Statement} {s : Statement} {b : Block} {k : Nat}
    {rest : List Nat} (hcloses : s.closes = some b) (top : untaken before b = k :: rest)
    (after : List Statement) : ⟨b, k, before.length⟩ ∈ spans (before ++ s :: after) := by
  obtain ⟨more, hspans, -⟩ := spans_append (before ++ [s]) after
  rw [List.append_assoc, List.singleton_append, spans_concat_of_closes hcloses top] at hspans
  rw [hspans]
  simp

/-- In a balanced program a closer has an opener to take. Otherwise there would be no span that
ends with this closer. -/
theorem Balanced.exists_untaken {before after : List Statement} {s : Statement}
    (balanced : Balanced (before ++ s :: after)) {b : Block} (hcloses : s.closes = some b) :
    ∃ k rest, untaken before b = k :: rest := by
  have here : (before ++ s :: after)[before.length]?.bind Statement.closes = some b := by
    rw [List.getElem?_append_right (Nat.le_refl _), Nat.sub_self]
    exact hcloses
  obtain ⟨own, hown, hcloser, -⟩ := balanced.exists_span_of_closes here
  cases top : untaken before b with
  | cons k rest => exact ⟨k, rest, rfl⟩
  | nil =>
    -- Without one it makes no span, and every span ends before it or behind it.
    exfalso
    obtain ⟨more, hspans, hmore⟩ := spans_append (before ++ [s]) after
    rw [List.append_assoc, List.singleton_append, spans_concat, hcloses, Option.bind_some, top]
      at hspans
    rw [hspans] at hown
    rcases List.mem_append.mp hown with early | late
    · have := (fits_of_mem_spans (early : own ∈ spans before)).lt_length
      omega
    · have := hmore own late
      rw [List.length_append, List.length_singleton] at this
      omega

/-- In a balanced program an opener that is left at some place is closed behind that place. Its
span cannot be one of those that are complete. -/
theorem Balanced.exists_later_span {before after : List Statement}
    (balanced : Balanced (before ++ after)) {k : Nat} {b : Block} (hk : k ∈ untaken before b) :
    ∃ span ∈ spans (before ++ after), span.opener = k ∧ before.length ≤ span.closer := by
  obtain ⟨hlt, hopens, hfree⟩ := mem_untaken.mp hk
  have here : (before ++ after)[k]?.bind Statement.opens = some b := by
    rwa [List.getElem?_append_left hlt]
  obtain ⟨span, hspan, hopener, -⟩ := balanced.exists_span_of_opens here
  refine ⟨span, hspan, hopener, ?_⟩
  obtain ⟨more, hspans, hmore⟩ := spans_append before after
  rw [hspans] at hspan
  rcases List.mem_append.mp hspan with early | late
  · exact absurd hopener (hfree span early)
  · exact hmore span late

/-- In a balanced program without crossing spans, a closer finds its opener on top of the
stack. -/
theorem Stacked.top_of_closer {before after : List Statement} {s : Statement}
    {stack : List (Nat × Block)} (h : Stacked before stack)
    (balanced : Balanced (before ++ s :: after)) (uncrossed : Uncrossed (before ++ s :: after))
    {b : Block} (hcloses : s.closes = some b) :
    ∃ k below rest, stack = (k, b) :: below ∧ untaken before b = k :: rest := by
  obtain ⟨k, rest, top⟩ := balanced.exists_untaken hcloses
  have hk : (k, b) ∈ stack := (h.mem k b).mpr (by rw [top]; exact List.mem_cons_self)
  cases stack with
  | nil => cases hk
  | cons highest below =>
    obtain ⟨t, c⟩ := highest
    refine ⟨k, below, rest, ?_, top⟩
    rcases List.mem_cons.mp hk with heq | hbelow
    · rw [heq]
    · -- Otherwise the opener on top is closed later, and the two spans cross.
      exfalso
      have hkt : k < t := (List.pairwise_cons.mp h.sorted).1 _ hbelow
      have htop : t ∈ untaken before c := (h.mem t c).mp List.mem_cons_self
      have left : t ∈ untaken (before ++ [s]) c := by
        rw [untaken_concat_closer_eq_filter hcloses top, List.mem_filter]
        exact ⟨htop, bne_iff_ne.mpr (Nat.ne_of_lt hkt)⟩
      have whole : Balanced (before ++ [s] ++ after) := by rwa [List.append_assoc]
      obtain ⟨later, hlater, hopener, hlast⟩ := whole.exists_later_span left
      rw [List.append_assoc, List.singleton_append] at hlater
      rw [List.length_append, List.length_singleton] at hlast
      refine uncrossed _ (mem_spans_of_closer hcloses top after) later hlater ⟨?_, ?_, hlast⟩
      · rw [hopener]
        exact hkt
      · rw [hopener]
        exact (mem_untaken.mp htop).1

/-- A balanced program without crossing spans is nested, from any place on. By induction on the
statements that follow the place. -/
theorem nestedFrom_of_stacked {before after : List Statement} {stack : List (Nat × Block)}
    (h : Stacked before stack) (balanced : Balanced (before ++ after))
    (uncrossed : Uncrossed (before ++ after)) : nestedFrom (stack.map Prod.snd) after = true := by
  -- Statements move from `after` to `before`, so the whole program stays balanced and uncrossed.
  induction after generalizing before stack with
  | nil =>
    cases stack with
    | nil => rfl
    | cons top below =>
      rw [List.append_nil] at balanced
      have left := (h.mem top.1 top.2).mp List.mem_cons_self
      rw [balanced.all_taken] at left
      cases left
  | cons s after ih =>
    have step : ∀ {stack : List (Nat × Block)}, Stacked (before ++ [s]) stack →
        nestedFrom (stack.map Prod.snd) after = true := fun stacked =>
      ih stacked (by rwa [List.append_assoc]) (by rwa [List.append_assoc])
    cases hopens : s.opens with
    | some b =>
      rw [nestedFrom_opener hopens]
      exact step (h.opener hopens)
    | none =>
      cases hcloses : s.closes with
      | none =>
        rw [nestedFrom_plain hopens hcloses]
        exact step (h.plain hopens hcloses)
      | some b =>
        obtain ⟨k, below, rest, rfl, top⟩ := h.top_of_closer balanced uncrossed hcloses
        exact (nestedFrom_closer hcloses).mpr
          ⟨below.map Prod.snd, rfl, step (h.closer hcloses top)⟩

/-- A balanced program without crossing spans is the list of statements of a script. Nothing is
left behind the script, since it would start with a closer and the stack is empty. -/
theorem exists_script {ss : List Statement} (balanced : Balanced ss) (uncrossed : Uncrossed ss) :
    ∃ script : Script, script.statements = ss := by
  have stacked : Stacked [] [] := ⟨.nil, fun k b => by simp [untaken]⟩
  have nested : nestedFrom [] ss = true :=
    nestedFrom_of_stacked stacked balanced uncrossed
  obtain ⟨script, rest, rfl, nested, starts⟩ :=
    startsWithScript_of_nestedFrom (Nat.lt_succ_self _) nested
  cases rest with
  | nil => exact ⟨script, by rw [List.append_nil]⟩
  | cons s rest =>
    obtain ⟨b, hcloses⟩ := Option.ne_none_iff_exists'.mp (starts s rest rfl)
    obtain ⟨below, hempty, -⟩ := (nestedFrom_closer hcloses).mp nested
    cases hempty

end Tickscript
