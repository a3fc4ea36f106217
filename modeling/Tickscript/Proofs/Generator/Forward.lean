import Tickscript.Proofs.Generator.Grammar
import Tickscript.Proofs.Generator.Landings

/-!
# `Tickscript.Proofs.Generator.Forward`: without loops all jumps go forward

The only jump that goes back is the one that closes a loop. A program in which no statement starts
with `for` has no such jump: a closer without its opener is refused, so there is nothing to close.
What is left are the two jumps of a conditional. One goes over the other, and the other goes to
where the block was closed, which is behind both even if the block is empty
(`Balanced.lt_of_target`).

`Forward` keeps of this what a run needs to know.
-/

set_option autoImplicit false

namespace Tickscript

/-- Whether the tokens of a statement start with the keyword of a loop. This is asked of the
tokens and not of the statement, so that it can be read off a source. -/
def startsLoop (tokens : List Token) : Bool :=
  tokens.head?.any fun head => head.kind = .keyword && head.text = "for"

/-- A statement that opens a loop was read from tokens that start with the keyword. All other
forms that start with a keyword open a conditional, close a block or print. -/
theorem startsLoop_of_opens {tokens : List Token} {s : Statement}
    (h : Statement.ofTokens tokens = .ok s) (opens : s.opens = some .loop) :
    startsLoop tokens = true := by
  obtain ⟨form, fits, rfl, rfl⟩ := Statement.exists_form_of_ofTokens h
  cases form with
  | loop keyword header =>
    obtain ⟨kind, text, -⟩ := fits
    simp [startsLoop, Form.tokens, kind, text]
  | _ => cases opens

/-- Where no loop is opened, none is closed. A closer that took no opener would have been refused,
and the opener that it took is of its own kind. -/
theorem Balanced.closes_ne_loop {ss : List Statement} (h : Balanced ss)
    (loopFree : ∀ s ∈ ss, s.opens ≠ some .loop) {k : Nat} {s : Statement} (hs : ss[k]? = some s) :
    s.closes ≠ some .loop := by
  intro closes
  obtain ⟨span, hspan, -, hblock⟩ :=
    h.exists_span_of_closes (by rw [hs]; exact closes : ss[k]?.bind Statement.closes = _)
  obtain ⟨opener, hopener, opens⟩ := Option.bind_eq_some_iff.mp (fits_of_mem_spans hspan).opens
  rw [hblock] at opens
  exact loopFree opener (List.mem_of_getElem? hopener) opens

/-- Without loops, a target lies behind the jump. The cases are those of `Statement.target_cases`:
the two jumps of a conditional, and the jumps of a loop, which there are none of. -/
theorem Balanced.lt_of_target {m : Mnemonics} {ss : List Statement} (h : Balanced ss)
    (loopFree : ∀ s ∈ ss, s.opens ≠ some .loop) {a target : Nat} {i : Instr}
    (hi : (layout m ss)[a]? = some i) (htarget : i.target = some (target : Int)) :
    a < target := by
  rcases exists_statement_of_getElem?_layout hi with ⟨k, s, n, hs, hn, rfl, hcode⟩ | rfl
  · rcases Statement.target_cases (List.mem_of_getElem? hcode) htarget with
      ⟨opens, ht | ht⟩ | ⟨opens, -⟩ | ⟨closes, -⟩
    · -- The jump over the second one of a conditional.
      omega
    · obtain ⟨span, hspan, rfl, -⟩ :=
        h.exists_span_of_opens (by rw [hs]; exact opens : ss[k]?.bind Statement.opens = _)
      rw [(partner?_of_mem_spans hspan).1] at ht
      cases ht
      -- The closer is a later statement, so all of the opener stands before it.
      have behind : address ss (span.opener + 1) ≤ address ss span.closer :=
        address_mono (fits_of_mem_spans hspan).lt
      have own := address_succ hs
      omega
    · exact absurd opens (loopFree s (List.mem_of_getElem? hs))
    · exact absurd closes (h.closes_ne_loop loopFree hs)
  · cases htarget

/-- Every target in `code` lies behind its jump. A machine that runs such code never comes back to
an instruction within one round, so each round has an end. -/
def Forward (code : List Instr) : Prop :=
  ∀ (a : Nat) (i : Instr), code[a]? = some i → ∀ target : Nat,
    i.target = some (target : Int) → a < target

/-- **Without loops all jumps go forward**, however conditionals are nested and even if they are
empty. The generator must have accepted the program, because a stray closer is only excluded by
that. -/
theorem forward_of_generate {m : Mnemonics} {statements : List (List Token)}
    (h : (Generator.generate m {} statements).2 = none)
    (loopFree : ∀ tokens ∈ statements, startsLoop tokens = false) :
    Forward (Generator.generate m {} statements).1.code := by
  obtain ⟨ss, g, hss, laid, all_taken, hgenerate⟩ := laid_of_generate h
  have balanced : Balanced ss := ⟨all_taken, laid.closers⟩
  have noLoop : ∀ s ∈ ss, s.opens ≠ some .loop := by
    intro s hs opens
    obtain ⟨tokens, htokens, hread⟩ := exists_of_mem_mapM hss hs
    have starts := startsLoop_of_opens hread opens
    rw [loopFree tokens htokens] at starts
    cases starts
  have hcode : (Generator.generate m {} statements).1.code = layout m ss := by
    rw [hgenerate, Generator.append, laid.code]
    rfl
  intro a i hi target htarget
  rw [hcode] at hi
  exact balanced.lt_of_target noLoop hi htarget

end Tickscript
