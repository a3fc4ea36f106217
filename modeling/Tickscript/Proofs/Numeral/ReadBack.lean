import Tickscript.Proofs.Numeral.Limits

/-!
# `Tickscript.Proofs.Numeral.ReadBack`: integers written and read

An integer that can be written is read back from its text (`readInteger_toString`), and every
integer that is read from some text can be written (`natAbs_lt_of_readInteger`). The two limits on
the number of digits are therefore the same limit. The text that is read may have many forms:
signs, underscores, zeros in front, digits of any script. The text that is written has one. It has
no zeros in front, so it is a literal as well (`readLiteral?_toString`).
-/

set_option autoImplicit false

namespace Tickscript.Numeral

open Tickscript.Text

/-! ### Digits -/

/-- A digit of ASCII is one of the ten, which is how the library says it and how it is said
here. -/
theorem isPlainDigit_of_isDigit {c : Char} (h : c.isDigit = true) : IsPlainDigit c := by
  simp only [Char.isDigit, Bool.and_eq_true, decide_eq_true_eq, ge_iff_le,
    UInt32.le_iff_toNat_le] at h
  have hlow : 48 ≤ c.toNat := h.1
  have hhigh : c.toNat ≤ 57 := h.2
  refine ⟨c.toNat - 48, by omega, ?_⟩
  rw [show 48 + (c.toNat - 48) = c.toNat by omega, Char.ofNat_toNat]

/-- The decimal digits of a number are digits of ASCII, so all that was decided about the ten
holds of them. -/
theorem isPlainDigit_of_mem_toDigits {n : Nat} {c : Char} (h : c ∈ Nat.toDigits 10 n) :
    IsPlainDigit c :=
  isPlainDigit_of_isDigit (Nat.isDigit_of_mem_toDigits (by decide) (by decide) h)

/-- A character that is no digit of ASCII is in no decimal numeral. Texts with numerals in them
are cut at such characters (the commas and spaces of a range), or must be free of one of them (the
carriage return). -/
theorem not_mem_toDigits {c : Char} (h : c.isDigit = false) (n : Nat) :
    c ∉ Nat.toDigits 10 n := by
  intro hc
  rw [Nat.isDigit_of_mem_toDigits (by decide) (by decide) hc] at h
  cases h

/-- The value of a digit of ASCII is its distance from zero. For other radices letters have
values, too, but not here. -/
theorem charValue_of_isPlainDigit {c : Char} (h : IsPlainDigit c) :
    charValue c = c.toNat - '0'.toNat :=
  h.of_forall (P := fun c => charValue c = c.toNat - '0'.toNat) (by decide)

/-- The decimal digits of a number stand for the number. The sum that is formed here is compared
with that of the library, digit by digit. -/
theorem digitsValue_toDigits (n : Nat) : digitsValue 10 (Nat.toDigits 10 n) = n := by
  -- By induction on the digits, for every value that was summed up before.
  have same : ∀ (cs : List Char) (acc : Nat), (∀ c ∈ cs, IsPlainDigit c) →
      cs.foldl (fun acc c => acc * 10 + charValue c) acc = Nat.ofDigitChars 10 cs acc := by
    intro cs
    induction cs with
    | nil =>
      intro acc _
      rw [Nat.ofDigitChars_nil]
      rfl
    | cons c cs ih =>
      intro acc hcs
      rw [List.foldl_cons, ih _ fun d hd => hcs d (List.mem_cons_of_mem _ hd),
        Nat.ofDigitChars_cons, charValue_of_isPlainDigit (hcs c List.mem_cons_self),
        Nat.mul_comm acc 10]
  rw [digitsValue, same _ 0 fun c => isPlainDigit_of_mem_toDigits, Nat.ofDigitChars_ten_toDigits]

/-- A number is below the power of its radix that has as many zeros as the number has digits. The
digits may be those of any radix. -/
theorem digitsValue_lt {radix : Nat} {cs : List Char} (h : ∀ c ∈ cs, charValue c < radix) :
    digitsValue radix cs < Nat.pow radix cs.length := by
  -- The value so far is part of the bound, so that the induction goes through.
  have bound : ∀ (cs : List Char) (acc : Nat), (∀ c ∈ cs, charValue c < radix) →
      cs.foldl (fun acc c => acc * radix + charValue c) acc <
        (acc + 1) * Nat.pow radix cs.length := by
    intro cs
    induction cs with
    | nil =>
      intro acc _
      simp
    | cons c cs ih =>
      intro acc hcs
      have hc := hcs c List.mem_cons_self
      have step : acc * radix + charValue c + 1 ≤ (acc + 1) * radix := by
        rw [Nat.succ_mul]
        omega
      calc (c :: cs).foldl (fun acc c => acc * radix + charValue c) acc
          < (acc * radix + charValue c + 1) * Nat.pow radix cs.length :=
            ih _ fun d hd => hcs d (List.mem_cons_of_mem _ hd)
        _ ≤ (acc + 1) * radix * Nat.pow radix cs.length := Nat.mul_le_mul_right _ step
        _ = (acc + 1) * Nat.pow radix (c :: cs).length := by
            rw [Nat.mul_assoc, Nat.mul_comm radix]
            rfl
  have whole := bound cs 0 h
  rwa [Nat.zero_add, Nat.one_mul] at whole

/-- Powers of ten grow with the exponent, so fewer digits mean a smaller bound. -/
theorem pow_ten_mono {j k : Nat} (h : j ≤ k) : Nat.pow 10 j ≤ Nat.pow 10 k :=
  Nat.pow_le_pow_right (by decide) h

/-- A number below a power of ten has no more digits than the exponent. Zero has one digit, which
is why the exponent must be positive. -/
theorem length_toDigits_le {n k : Nat} (hk : 0 < k) (h : n < Nat.pow 10 k) :
    (Nat.toDigits 10 n).length ≤ k :=
  (Nat.length_toDigits_le_iff (by decide) hk).mpr h

/-! ### The text of an integer -/

/-- The text of an integer are its digits, with a minus in front if it is negative. All other
facts about this text go back to this. -/
theorem toList_toString (n : Int) :
    (toString n).toList =
      if n < 0 then '-' :: Nat.toDigits 10 n.natAbs else Nat.toDigits 10 n.natAbs := by
  have hrepr : toString n = n.repr := rfl
  rw [hrepr, Int.repr_eq_if]
  by_cases hneg : n < 0
  · have habs : (-n).toNat = n.natAbs := by omega
    rw [if_neg (by omega), if_pos hneg, habs, Nat.repr_eq_ofList_toDigits]
    simp
  · have habs : n.toNat = n.natAbs := by omega
    rw [if_pos (by omega), if_neg hneg, habs, Nat.repr_eq_ofList_toDigits, String.toList_ofList]

/-- What is checked of the minus and of the ten digits once is known of all characters of the text
of an integer. This decides for line breaks, quotation marks and padding that none of them is
there. -/
theorem of_mem_toString {P : Char → Prop} (minus : P '-')
    (digits : ∀ d < 10, P (Char.ofNat (48 + d))) {n : Int} {c : Char}
    (h : c ∈ (toString n).toList) : P c := by
  have digit : c ∈ Nat.toDigits 10 n.natAbs → P c :=
    fun h => (isPlainDigit_of_mem_toDigits h).of_forall digits
  rw [toList_toString] at h
  split at h
  · rcases List.mem_cons.mp h with rfl | h
    · exact minus
    · exact digit h
  · exact digit h

/-- The text of an integer is read as it stands: it is in ASCII and has no padding. So nothing is
replaced and nothing is trimmed. -/
theorem plainNumeral_toString (n : Int) : plainNumeral (toString n) = (toString n).toList := by
  have same : (toString n).toList.map plainChar = (toString n).toList := by
    refine (List.map_congr_left fun c hc => ?_).trans (List.map_id _)
    exact of_mem_toString (P := fun c => plainChar c = id c) (by decide) (by decide) hc
  rw [plainNumeral, same]
  exact trimBy_eq_self fun c =>
    of_mem_toString (P := fun c => isPadding c = false) (by decide) (by decide)

/-- The text of an integer splits into its sign and its digits. It has a minus or no sign, and
never a plus. -/
theorem splitSign_toString (n : Int) :
    splitSign (plainNumeral (toString n)) = (decide (n < 0), Nat.toDigits 10 n.natAbs) := by
  rw [plainNumeral_toString, toList_toString]
  by_cases hneg : n < 0
  · rw [if_pos hneg, decide_eq_true hneg]
    rfl
  · rw [if_neg hneg, decide_eq_false hneg,
      splitSign_of_digits fun c => isPlainDigit_of_mem_toDigits]

/-- An integer has its sign and its absolute value, and is put together again from the two. -/
theorem signed_natAbs (n : Int) : signed (decide (n < 0)) n.natAbs = n := by
  by_cases hneg : n < 0
  · rw [decide_eq_true hneg]
    show -(n.natAbs : Int) = n
    omega
  · rw [decide_eq_false hneg]
    show (n.natAbs : Int) = n
    omega

/-- The decimal digits of a number are read, unless they are too many. The bound on the number is
the bound on its digits. -/
theorem readDigits_toDigits {n : Nat} (h : n < Nat.pow 10 digitLimit) :
    readDigits 10 true (Nat.toDigits 10 n) = .ok n := by
  have short : ¬digitLimit < (Nat.toDigits 10 n).length :=
    Nat.not_lt.mpr (length_toDigits_le (by decide) h)
  rw [readDigits_of_digits (fun c => isPlainDigit_of_mem_toDigits) Nat.toDigits_ne_nil,
    if_neg short, digitsValue_toDigits]

/-- An integer that does not have too many digits is read back from its text. Arguments and
targets of a program are read in this way, and so are the ticks of a schedule. -/
theorem readInteger_toString {n : Int} (h : n.natAbs < Nat.pow 10 digitLimit) :
    readInteger (toString n) = .ok n := by
  simp only [readInteger, splitSign_toString, readDigits_toDigits h, signed_natAbs]

/-- The decimal digits of a number have no zero in front, unless the number is zero. -/
theorem tail_eq_nil_of_toDigits {n : Nat} {rest : List Char}
    (h : Nat.toDigits 10 n = '0' :: rest) :
    rest = [] := by
  cases rest with
  | nil => rfl
  | cons d ds =>
    exfalso
    -- Without the zero the digits stand for the same number, which then needs fewer of them.
    have digits : ∀ c ∈ d :: ds, charValue c < 10 := by
      intro c hc
      have mem : c ∈ Nat.toDigits 10 n := h ▸ List.mem_cons_of_mem _ hc
      exact (isPlainDigit_of_mem_toDigits mem).of_forall
        (P := fun c => charValue c < 10) (by decide)
    have value : digitsValue 10 (d :: ds) = n := by
      have whole := digitsValue_toDigits n
      rwa [h] at whole
    have short := length_toDigits_le (by simp) (value ▸ digitsValue_lt digits)
    rw [h, List.length_cons] at short
    omega

/-- The decimal digits of a number are read as a literal, too. A literal may have a mark of
another radix after a zero, and in decimal only zero itself starts with one. -/
theorem readMagnitude?_toDigits {n : Nat} (h : n < Nat.pow 10 digitLimit) :
    readMagnitude? (Nat.toDigits 10 n) = some n := by
  unfold readMagnitude?
  split
  case h_7 rest _ _ _ _ _ _ heq =>
    -- The only number that starts with a zero.
    have zero : n = 0 := by
      rw [← digitsValue_toDigits n, heq, tail_eq_nil_of_toDigits heq]
      rfl
    rw [readDigits_toDigits h, zero]
    rfl
  case h_8 =>
    rw [readDigits_toDigits h]
    rfl
  -- The marks of the other radices stand behind a zero.
  all_goals
    rename_i heq
    exact absurd (tail_eq_nil_of_toDigits heq) (List.cons_ne_nil _ _)

/-- An integer that does not have too many digits is read back from its text as a literal. The
values of a schedule are read in this way. -/
theorem readLiteral?_toString {n : Int} (h : n.natAbs < Nat.pow 10 digitLimit) :
    readLiteral? (toString n) = some n := by
  simp only [readLiteral?, splitSign_toString, readMagnitude?_toDigits h, Option.map_some,
    signed_natAbs]

/-! ### The text of an integer as an operand -/

/-- The text of an integer is no literal of a text: it has no quotation mark. -/
theorem literalBody?_toString (n : Int) : literalBody? (toString n) = none := by
  unfold literalBody?
  split
  · rename_i rest heq
    have quote : '"' ∈ (toString n).toList := heq ▸ List.mem_cons_self
    exact absurd rfl (of_mem_toString (P := fun c => c ≠ '"') (by decide) (by decide) quote)
  · rfl

/-- The text of an integer has the shape of a whole number, so an argument with this text is read
as an integer. -/
theorem shape_toString (n : Int) : NumeralShape.of? (toString n).toList = some .whole := by
  have digits : ∀ c ∈ Nat.toDigits 10 n.natAbs, isDigit c = true := by
    intro c hc
    exact (isPlainDigit_of_mem_toDigits hc).of_forall (P := fun c => isDigit c = true) (by decide)
  have unsigned : (if (toString n).toList.head? = some '-' then (toString n).toList.tail
      else (toString n).toList) = Nat.toDigits 10 n.natAbs := by
    rw [toList_toString]
    split
    · rfl
    · split
      · -- The digits have no minus in front.
        rename_i minus
        exact absurd (digits '-' (List.mem_of_mem_head? minus)) (by decide)
      · rfl
  have run : (Nat.toDigits 10 n.natAbs).takeWhile isDigit = Nat.toDigits 10 n.natAbs :=
    List.takeWhile_eq_self_iff.mpr digits
  have rest : (Nat.toDigits 10 n.natAbs).dropWhile isDigit = [] :=
    List.dropWhile_eq_nil_iff.mpr digits
  simp only [NumeralShape.of?, unsigned, run, rest,
    List.isEmpty_eq_false_iff.mpr Nat.toDigits_ne_nil]
  rfl

/-- An operand that is the text of an integer stands for this integer, whatever the variables are.
Numbers are not looked up among them. -/
theorem ofOperand_toString {n : Int} (h : n.natAbs < Nat.pow 10 digitLimit)
    (store : Table String Value) :
    Value.ofOperand store (toString n) = .ok (.int n) := by
  simp only [Value.ofOperand, literalBody?_toString, shape_toString, readInteger_toString h]
  rfl

/-! ### Integers that were read -/

/-- The limit on the number of digits is a limit on the number. Underscores are no digits and do
not count. -/
theorem lt_of_readDigits {cs : List Char} {v : Nat} (h : readDigits 10 true cs = .ok v) :
    v < Nat.pow 10 digitLimit := by
  unfold readDigits at h
  dsimp only at h
  generalize hrun : cs.takeWhile (fun c => c == '_' || decide (charValue c < 10)) = run at h
  have digits : ∀ c ∈ run.filter (· != '_'), charValue c < 10 := by
    intro c hc
    obtain ⟨hmem, hne⟩ := List.mem_filter.mp hc
    rw [← hrun] at hmem
    have inRun := List.mem_takeWhile_imp hmem
    simp only [bne_iff_ne] at hne
    simpa [hne] using inRun
  split at h
  · cases h
  · split at h
    · cases h
    · rename_i short
      split at h
      · cases h
      · cases h
        have hle : (run.filter (· != '_')).length ≤ digitLimit := by simpa using short
        exact Nat.lt_of_lt_of_le (digitsValue_lt digits) (pow_ten_mono hle)

/-- An integer that was read, from whatever text, does not have too many digits to be written. The
sign does not count. -/
theorem natAbs_lt_of_readInteger {text : String} {n : Int} (h : readInteger text = .ok n) :
    n.natAbs < Nat.pow 10 digitLimit := by
  unfold readInteger at h
  generalize splitSign (plainNumeral text) = parts at h
  obtain ⟨negative, cs⟩ := parts
  dsimp only at h
  split at h
  · rename_i v hv
    cases h
    have habs : (signed negative v).natAbs = v := by
      cases negative <;> simp [signed]
    rw [habs]
    exact lt_of_readDigits hv
  · cases h
  · cases h

/-- An integer that does not have too many digits is written, as its decimal text. -/
theorem writeInteger_of_lt {n : Int} (h : n.natAbs < Nat.pow 10 digitLimit) :
    writeInteger n = .ok (toString n) := by
  rw [writeInteger, if_neg (Nat.not_le_of_lt h)]

end Tickscript.Numeral
