import Mathlib.Data.List.TakeWhile
import Tickscript.Value.Operand

/-!
# `Tickscript.Proofs.Numeral.Limits`: only the digit limit refuses a number

Arguments are read by their shape, so a text that is read as an integer is known to consist of
digits. Then nothing is left to be wrong with it but their number (`ofOperand_eq_error`). A text
of another shape is always read. The other way, an integer is written unless it has too many
digits; a floating point number that equals an integer never has (`format_eq_error`).
-/

set_option autoImplicit false

namespace Tickscript

open Tickscript.Text

namespace Numeral

/-! ### Digits of any script -/

/-- One of the ten digits of ASCII. There are ten of them, so a fact about all of them can be
decided. -/
def IsPlainDigit (c : Char) : Prop :=
  ∃ d < 10, c = Char.ofNat (48 + d)

/-- What is checked of the ten digits once is known of each of them. The check is left to
`decide`. -/
theorem IsPlainDigit.of_forall {P : Char → Prop} {c : Char} (h : IsPlainDigit c)
    (all : ∀ d < 10, P (Char.ofNat (48 + d))) : P c := by
  obtain ⟨d, hd, rfl⟩ := h
  exact all d hd

/-- A digit of any script becomes a digit of ASCII before a number is read. So only ten digits
have to be looked at from there on. -/
theorem isPlainDigit_plainChar {c : Char} (h : isDigit c = true) :
    IsPlainDigit (plainChar c) := by
  obtain ⟨d, hvalue⟩ := Option.isSome_iff_exists.mp h
  obtain ⟨start, hstart, hin⟩ := List.exists_of_findSome?_eq_some hvalue
  simp only [Bool.and_eq_true, decide_eq_true_eq] at hin
  split at hin
  · rename_i hrange
    have hd : d = c.toNat - start := (Option.some.inj hin).symm
    unfold plainChar
    split
    · rename_i hascii
      -- Below 128 there is one run of digits, and its digits stay as they are.
      have first : ∀ s ∈ zeroDigits, s < 128 → s = 48 := by decide
      have hfirst := first start hstart (by omega)
      refine ⟨c.toNat - 48, by omega, ?_⟩
      rw [show 48 + (c.toNat - 48) = c.toNat by omega, Char.ofNat_toNat]
    · rw [hvalue]
      exact ⟨d, by omega, rfl⟩
  · cases hin

/-! ### Reading -/

/-- Nothing is trimmed from a text that has something to be kept at both ends, whatever stands in
between. -/
theorem trimBy_of_ends {p : Char → Bool} {cs : List Char} (head : ∀ c ∈ cs.head?, p c = false)
    (last : ∀ c ∈ cs.getLast?, p c = false) : trimBy p cs = cs := by
  have keep : ∀ ds : List Char, (∀ c ∈ ds.head?, p c = false) → ds.dropWhile p = ds := by
    intro ds hds
    cases ds with
    | nil => rfl
    | cons d ds => rw [List.dropWhile_cons_of_neg (by simp [hds d rfl])]
  rw [trimBy, keep cs head, keep cs.reverse (by rwa [List.head?_reverse]), List.reverse_reverse]

/-- Nothing is trimmed from a text without padding, such as a run of digits. -/
theorem trimBy_eq_self {p : Char → Bool} {cs : List Char} (h : ∀ c ∈ cs, p c = false) :
    trimBy p cs = cs :=
  trimBy_of_ends (fun c hc => h c (List.mem_of_mem_head? hc)) fun c hc =>
    h c (List.mem_of_getLast? hc)

/-- A text without underscores is well spaced unless it is empty. The flag that remembers an
underscore is never set again, so the induction is for both of its values. -/
theorem wellSpaced_of_digits {cs : List Char} (h : ∀ c ∈ cs, c ≠ '_') {after : Bool}
    (hcs : cs ≠ []) : wellSpaced after cs = true := by
  induction cs generalizing after with
  | nil => exact absurd rfl hcs
  | cons c cs ih =>
    rw [wellSpaced, if_neg (h c List.mem_cons_self)]
    cases cs with
    | nil => rfl
    | cons d ds => exact ih (fun e he => h e (List.mem_cons_of_mem _ he)) (by simp)

/-- Digits are read as a number, or refused because they are too many. No other fault is left,
since there are no underscores and no other characters. -/
theorem readDigits_of_digits {cs : List Char} (h : ∀ c ∈ cs, IsPlainDigit c) (hcs : cs ≠ []) :
    readDigits 10 true cs =
      if digitLimit < cs.length then .error (.tooLong cs.length)
      else .ok (digitsValue 10 cs) := by
  have inRun : ∀ c ∈ cs, (c == '_' || decide (charValue c < 10)) = true :=
    fun c hc => (h c hc).of_forall (P := fun c => (c == '_' || decide (charValue c < 10)) = true)
      (by decide)
  have noUnderscore : ∀ c ∈ cs, c ≠ '_' :=
    fun c hc => (h c hc).of_forall (P := fun c => c ≠ '_') (by decide)
  have run : cs.takeWhile (fun c => c == '_' || decide (charValue c < 10)) = cs :=
    List.takeWhile_eq_self_iff.mpr inRun
  have rest : cs.dropWhile (fun c => c == '_' || decide (charValue c < 10)) = [] :=
    List.dropWhile_eq_nil_iff.mpr inRun
  have digits : cs.filter (· != '_') = cs :=
    List.filter_eq_self.mpr fun c hc => by simpa using noUnderscore c hc
  simp only [readDigits, run, rest, digits, wellSpaced_of_digits noUnderscore hcs]
  simp

/-- The digits of a whole number, which may have a minus in front. This is what the shape of an
argument says about its characters. -/
theorem digits_of_whole {cs : List Char} (h : NumeralShape.of? cs = some .whole) :
    ∃ digits : List Char, digits ≠ [] ∧ (∀ c ∈ digits, isDigit c = true) ∧
      (cs = digits ∨ cs = '-' :: digits) := by
  unfold NumeralShape.of? at h
  generalize hunsigned : (if cs.head? = some '-' then cs.tail else cs) = unsigned at h
  have parts : cs = unsigned ∨ cs = '-' :: unsigned := by
    rw [← hunsigned]
    split
    · rename_i hminus
      cases cs with
      | nil => cases hminus
      | cons c cs =>
        cases hminus
        exact Or.inr rfl
    · exact Or.inl rfl
  -- The other shapes have something behind the digits, or no digits.
  have all : unsigned.takeWhile isDigit ≠ [] ∧ unsigned.dropWhile isDigit = [] := by
    simp only [List.isEmpty_iff] at h
    split at h
    · cases h
    · rename_i hne
      refine ⟨hne, ?_⟩
      split at h
      · assumption
      · split at h <;> cases h
      · cases h
  refine ⟨unsigned, ?_, List.dropWhile_eq_nil_iff.mp all.2, parts⟩
  rintro rfl
  exact all.1 rfl

/-- A text that starts with a digit has no sign, neither a minus nor a plus. -/
theorem splitSign_of_digits {cs : List Char} (h : ∀ c ∈ cs, IsPlainDigit c) :
    splitSign cs = (false, cs) := by
  cases cs with
  | nil => rfl
  | cons c cs =>
    have hc := h c List.mem_cons_self
    have minus : c ≠ '-' := hc.of_forall (P := (· ≠ '-')) (by decide)
    have plus : c ≠ '+' := hc.of_forall (P := (· ≠ '+')) (by decide)
    unfold splitSign
    split
    · rename_i heq
      cases heq
      exact absurd rfl minus
    · rename_i heq
      cases heq
      exact absurd rfl plus
    · rfl

/-- What is left of a whole number without its sign are its digits, written in ASCII. The shape
was found on the text as it stands, and the number is read after its digits were replaced. -/
theorem splitSign_of_whole {text : String} (h : NumeralShape.of? text.toList = some .whole) :
    ∃ negative digits, splitSign (plainNumeral text) = (negative, digits) ∧ digits ≠ [] ∧
      ∀ c ∈ digits, IsPlainDigit c := by
  obtain ⟨digits, hne, hdigits, hparts⟩ := digits_of_whole h
  have plain : ∀ c ∈ digits.map plainChar, IsPlainDigit c := by
    intro c hc
    obtain ⟨d, hd, rfl⟩ := List.mem_map.mp hc
    exact isPlainDigit_plainChar (hdigits d hd)
  have unpadded : ∀ c ∈ digits.map plainChar, isPadding c = false :=
    fun c hc => (plain c hc).of_forall (P := fun c => isPadding c = false) (by decide)
  unfold plainNumeral
  rcases hparts with hparts | hparts
  · rw [hparts, trimBy_eq_self unpadded]
    exact ⟨false, _, splitSign_of_digits plain, by simpa using hne, plain⟩
  · have signed : ∀ c ∈ '-' :: digits.map plainChar, isPadding c = false := by
      intro c hc
      rcases List.mem_cons.mp hc with rfl | hc
      · rfl
      · exact unpadded c hc
    rw [hparts, List.map_cons, show plainChar '-' = '-' from rfl, trimBy_eq_self signed]
    exact ⟨true, _, rfl, by simpa using hne, plain⟩

/-- A whole number is read, or refused because it has too many digits. The other faults of reading
are those of texts of another shape. -/
theorem readInteger_of_whole {text : String} (h : NumeralShape.of? text.toList = some .whole) :
    (∃ n, readInteger text = .ok n) ∨
      ∃ digits, digitLimit < digits ∧ readInteger text = .error (.tooLong digits) := by
  obtain ⟨negative, digits, hsplit, hne, plain⟩ := splitSign_of_whole h
  simp only [readInteger, hsplit, readDigits_of_digits plain hne]
  by_cases long : digitLimit < digits.length
  · exact Or.inr ⟨_, long, by rw [if_pos long]⟩
  · exact Or.inl ⟨_, by rw [if_neg long]⟩

/-- An argument that cannot be read is a whole number with too many digits. Literals, other
numbers, constants and variables are always read. -/
theorem ofOperand_eq_error {store : Table String Value} {arg : String} {fault : IntegerFault}
    (h : Value.ofOperand store arg = .error fault) :
    NumeralShape.of? arg.toList = some .whole ∧ ∃ digits, digitLimit < digits ∧
      readInteger arg = .error (.tooLong digits) ∧ fault = .tooLong digits := by
  unfold Value.ofOperand at h
  split at h
  · cases h
  · split at h
    · rename_i hwhole
      rcases readInteger_of_whole hwhole with ⟨n, hn⟩ | ⟨digits, hdigits, hread⟩
      · rw [hn] at h
        cases h
      · rw [hread] at h
        cases h
        exact ⟨hwhole, digits, hdigits, hread, rfl⟩
    · cases h
    · cases h

/-! ### Writing -/

/-- Powers of two grow with the exponent. This is stated for `pow2`, which is how the exponents of
floating point numbers are written. -/
theorem pow2_mono {j k : Nat} (h : j ≤ k) : pow2 j ≤ pow2 k :=
  Nat.pow_le_pow_right (by decide) h

/-- Powers of ten are not below those of two, so a bound in bits is one in digits. -/
theorem pow2_le_pow_ten (k : Nat) : pow2 k ≤ Nat.pow 10 k :=
  Nat.pow_le_pow_left (by decide) k

/-- The significand of a finite number has 53 bits at most, and its exponent is at most 971. Both
come from the widths of the fields in its 64 bits. -/
theorem bounds_of_partsOf {x : Float} {negative : Bool} {significand : Nat} {exponent : Int}
    (h : partsOf x = .finite negative significand exponent) :
    significand < pow2 53 ∧ exponent ≤ 971 := by
  have hfraction : x.toBits.toNat % pow2 52 < pow2 52 := Nat.mod_lt _ (by decide)
  have hfield : x.toBits.toNat / pow2 52 % pow2 11 < pow2 11 := Nat.mod_lt _ (by decide)
  have hpow52 : pow2 52 + pow2 52 = pow2 53 := by decide
  have hpow11 : pow2 11 = 2048 := by decide
  unfold partsOf at h
  dsimp only at h
  split at h
  · split at h <;> cases h
  · split at h
    · cases h
      exact ⟨by omega, by decide⟩
    · cases h
      refine ⟨by omega, ?_⟩
      unfold leastExponent
      omega

/-- A floating point number that equals an integer is below `2 ^ 1024`. The integer is the
significand moved by the exponent, in one direction or in the other. -/
theorem natAbs_lt_of_toInteger? {x : Float} {n : Int} (h : toInteger? x = some n) :
    n.natAbs < pow2 1024 := by
  unfold toInteger? at h
  split at h
  · rename_i negative significand exponent hparts
    obtain ⟨hsignificand, hexponent⟩ := bounds_of_partsOf hparts
    dsimp only at h
    split at h
    · have hscaled : significand * pow2 exponent.toNat < pow2 1024 :=
        calc significand * pow2 exponent.toNat
            < pow2 53 * pow2 exponent.toNat :=
              Nat.mul_lt_mul_of_pos_right hsignificand (Nat.two_pow_pos _)
          _ = pow2 (53 + exponent.toNat) := (Nat.pow_add 2 53 exponent.toNat).symm
          _ ≤ pow2 1024 := pow2_mono (by omega)
      have hquotient := Nat.div_le_self (significand * pow2 exponent.toNat)
        (pow2 (-exponent).toNat)
      have habs : n.natAbs = significand * pow2 exponent.toNat / pow2 (-exponent).toNat := by
        cases h
        split
        · rw [Int.natAbs_neg]
          rfl
        · rfl
      omega
    · cases h
  · cases h

/-- A value that cannot be printed is an integer with too many digits. A floating point number is
printed as an integer if it equals one, but such an integer is never too long. -/
theorem format_eq_error {v : Value} {fault : IntegerFault} (h : v.format = .error fault) :
    fault = .tooLongToWrite ∧ ∃ n : Int, v = .int n ∧ Nat.pow 10 digitLimit ≤ n.natAbs := by
  have written : ∀ n : Int, writeInteger n = .error fault →
      fault = .tooLongToWrite ∧ Nat.pow 10 digitLimit ≤ n.natAbs := by
    intro n hn
    unfold writeInteger at hn
    split at hn
    · rename_i hlong
      cases hn
      exact ⟨rfl, hlong⟩
    · cases hn
  cases v with
  | null => cases h
  | text s => cases h
  | int n =>
    obtain ⟨hfault, hlong⟩ := written n h
    exact ⟨hfault, n, rfl, hlong⟩
  | float x =>
    unfold Value.format at h
    dsimp only at h
    split at h
    · rename_i n hn
      have short := natAbs_lt_of_toInteger? hn
      have long := (written n h).2
      -- The limit is far beyond what a floating point number can hold.
      have reach : pow2 1024 ≤ Nat.pow 10 digitLimit :=
        Nat.le_trans (pow2_mono (by decide)) (pow2_le_pow_ten digitLimit)
      omega
    · cases h

end Numeral

end Tickscript
