import Tickscript.Proofs.Except
import Tickscript.Proofs.Numeral.ReadBack
import Tickscript.Proofs.ProgramText.Stored
import Tickscript.Schedule
import Tickscript.Value.Operand

/-!
# `Tickscript.Proofs.Text.Newlines`: texts that a file gives back

A text that is read from a file has no carriage returns (`noReturn_fromFile`), and a text without
carriage returns is read as it was written (`fromFile_of_noReturn`). So for a text to survive a
file it is enough that no carriage return gets into it. Here this is shown of what numbers and
values are written as, and of the values in a schedule. A schedule itself may hold carriage
returns, but a copy of it that has gone through a file has the same events (`parse_fromFile`).
-/

set_option autoImplicit false

namespace Tickscript

open Tickscript.Text Tickscript.Numeral

/-- A text without carriage returns. Newlines and all other line breaks may be there. -/
def NoReturn (text : String) : Prop :=
  '\r' ∉ text.toList

/-- The characters of a text can be looked through. -/
instance (text : String) : Decidable (NoReturn text) :=
  inferInstanceAs (Decidable (¬_))

/-! ### Files -/

/-- Normalised newlines are not carriage returns, neither those that came from a pair nor those
that came from one alone. -/
theorem not_mem_normalizeNewlines (cs : List Char) : '\r' ∉ normalizeNewlines cs := by
  fun_induction normalizeNewlines cs with
  | case1 => exact List.not_mem_nil
  | case2 rest ih => exact List.not_mem_cons_of_ne_of_not_mem (by decide) ih
  | case3 c rest notPair ih =>
    refine List.not_mem_cons_of_ne_of_not_mem ?_ ih
    split
    · decide
    · rename_i hreturn
      exact fun h => hreturn h.symm

/-- Without carriage returns there is nothing to normalise. By induction on the text. -/
theorem normalizeNewlines_of_not_mem {cs : List Char} (h : '\r' ∉ cs) :
    normalizeNewlines cs = cs := by
  fun_induction normalizeNewlines cs with
  | case1 => rfl
  | case2 rest ih => exact absurd List.mem_cons_self h
  | case3 c rest notPair ih =>
    rw [List.mem_cons, not_or] at h
    rw [if_neg (Ne.symm h.1), ih h.2]

/-- What is read from a file has no carriage returns. Sources and artifacts are all read in this
way. -/
theorem noReturn_fromFile (text : String) : NoReturn (fromFile text) := by
  rw [NoReturn, fromFile, String.toList_ofList]
  exact not_mem_normalizeNewlines text.toList

/-- A text without carriage returns is read as it was written. With `noReturn_fromFile` this makes
a second reading the same as the first. -/
theorem fromFile_of_noReturn {text : String} (h : NoReturn text) : fromFile text = text := by
  rw [fromFile, normalizeNewlines_of_not_mem h, String.ofList_toList]

/-! ### Texts that are put together -/

/-- Parts of a text without carriage returns have none. Literals and fields are such parts. -/
theorem NoReturn.of_subset {text : String} (h : NoReturn text) {cs : List Char}
    (sub : ∀ c ∈ cs, c ∈ text.toList) : NoReturn (String.ofList cs) := by
  rw [NoReturn, String.toList_ofList]
  exact fun mem => h (sub _ mem)

/-- Two texts without carriage returns have none together. -/
theorem NoReturn.append {a b : String} (ha : NoReturn a) (hb : NoReturn b) :
    NoReturn (a ++ b) := by
  rw [NoReturn, String.toList_append, List.mem_append, not_or]
  exact ⟨ha, hb⟩

/-- Texts without carriage returns have none when they are joined. -/
theorem noReturn_join {texts : List String} (h : ∀ t ∈ texts, NoReturn t) :
    NoReturn (String.join texts) := by
  rw [NoReturn, String.toList_join, List.mem_flatMap]
  rintro ⟨t, ht, mem⟩
  exact h t ht mem

/-- Neither have they with a separator between them that has none. -/
theorem noReturn_intercalate {separator : String} (hs : NoReturn separator) {texts : List String}
    (h : ∀ t ∈ texts, NoReturn t) : NoReturn (separator.intercalate texts) := by
  induction texts with
  | nil =>
    rw [String.intercalate_nil]
    decide
  | cons t texts ih =>
    cases texts with
    | nil =>
      rw [String.intercalate_singleton]
      exact h t List.mem_cons_self
    | cons u texts =>
      rw [String.intercalate_cons_cons]
      exact ((h t List.mem_cons_self).append hs).append
        (ih fun v hv => h v (List.mem_cons_of_mem t hv))

/-! ### Numbers and values -/

/-- The text of an integer has a minus and digits only. -/
theorem noReturn_toString (n : Int) : NoReturn (toString n) := by
  intro mem
  exact of_mem_toString (P := fun c => c ≠ '\r') (by decide) (by decide) mem rfl

/-- So has the text of an integer that is not too long. -/
theorem noReturn_writeInteger {n : Int} {text : String} (h : writeInteger n = .ok text) :
    NoReturn text := by
  unfold writeInteger at h
  split at h
  · cases h
  · cases h
    exact noReturn_toString n

/-- Digits with a point and zeros have no carriage returns, wherever the point is. -/
theorem not_mem_positional {digits : List Char} (h : '\r' ∉ digits) (exponent : Int) :
    '\r' ∉ positional digits exponent := by
  have zeros : ∀ n, '\r' ∉ List.replicate n '0' := by
    intro n mem
    cases List.eq_of_mem_replicate mem
  unfold positional
  split
  · simp [zeros, h]
  · have whole : '\r' ∉ digits.take (exponent.toNat + 1) :=
      fun mem => h (List.mem_of_mem_take mem)
    have fraction : '\r' ∉ digits.drop (exponent.toNat + 1) :=
      fun mem => h (List.mem_of_mem_drop mem)
    simp only [List.mem_append, List.mem_cons, zeros, whole, or_false, false_or, not_or]
    refine ⟨by decide, ?_⟩
    split
    · decide
    · exact fraction

/-- Digits with a power of ten behind them have no carriage returns. -/
theorem not_mem_scientific {digits : List Char} (h : '\r' ∉ digits) (width : Nat)
    (exponent : Int) : '\r' ∉ scientific width digits exponent := by
  -- The parts are a digit, a fraction, a sign and a power.
  have power : '\r' ∉ Nat.toDigits 10 exponent.natAbs := not_mem_toDigits (by decide) _
  have lead : '\r' ∉ digits.take 1 := fun mem => h (List.mem_of_mem_take mem)
  have fraction : '\r' ∉ (if digits.length ≤ 1 then [] else '.' :: digits.drop 1) := by
    split
    · exact List.not_mem_nil
    · exact List.not_mem_cons_of_ne_of_not_mem (by decide) fun mem => h (List.mem_of_mem_drop mem)
  have sign : '\r' ≠ (if exponent < 0 then '-' else '+') := by
    split <;> decide
  simp only [scientific, List.mem_append, List.mem_cons, List.mem_replicate, lead, fraction,
    sign, power, or_false, false_or, not_or, not_and]
  exact ⟨by decide, fun _ => by decide⟩

/-- The text of a floating point number has no carriage returns. It is a name for the numbers that
are not finite, and digits in one of the two forms for the others. -/
theorem noReturn_writeFloat (x : Float) : NoReturn (writeFloat x) := by
  have laidOut : ∀ digits place, '\r' ∉ layOut standardLayout digits place := by
    intro digits place
    -- Zeros at the end of the digits are dropped, so the digits are turned around twice.
    have significant :
        '\r' ∉ ((Nat.toDigits 10 digits).reverse.dropWhile (· == '0')).reverse := by
      rw [List.mem_reverse]
      intro mem
      exact not_mem_toDigits (by decide) digits
        (List.mem_reverse.mp ((List.dropWhile_sublist _).subset mem))
    unfold layOut
    dsimp only
    split
    · exact not_mem_positional significant _
    · exact not_mem_scientific significant _ _
  unfold writeFloat
  split
  · decide
  · split <;> decide
  · rename_i negative significand exponent _
    have body : '\r' ∉ (if significand = 0 then ['0', '.', '0'] else
        layOut standardLayout (shortestDecimal significand exponent).1
          (shortestDecimal significand exponent).2) := by
      split
      · decide
      · exact laidOut _ _
    rw [NoReturn, String.toList_ofList]
    split
    · exact List.not_mem_cons_of_ne_of_not_mem (by decide) body
    · exact body

/-- A value whose text, if it has one, has no carriage returns. Numbers are never in doubt. -/
def Value.NoReturn : Value → Prop
  | .text s => Tickscript.NoReturn s
  | _ => True

/-- Such a value is printed without carriage returns. There is one case for each kind of value. -/
theorem Value.NoReturn.format {value : Value} (h : value.NoReturn) {text : String}
    (hformat : value.format = .ok text) : Tickscript.NoReturn text := by
  cases value with
  | null =>
    cases hformat
    decide
  | text s =>
    cases hformat
    exact h
  | int n => exact noReturn_writeInteger hformat
  | float x =>
    simp only [Value.format] at hformat
    split at hformat
    · exact noReturn_writeInteger hformat
    · cases hformat
      exact noReturn_writeFloat x

/-- The text between the quotes of a literal is part of the literal, so it has no carriage returns
if the literal has none. -/
theorem noReturn_literalBody? {text body : String} (h : NoReturn text)
    (hbody : literalBody? text = some body) : NoReturn body := by
  unfold literalBody? at hbody
  split at hbody
  · rename_i rest hchars
    split at hbody
    · cases hbody
      refine h.of_subset fun c hc => ?_
      rw [hchars]
      exact List.mem_cons_of_mem _ ((List.dropLast_sublist rest).subset hc)
    · cases hbody
  · cases hbody

/-! ### Schedules -/

/-- A schedule that has gone through a file has the same events. Reading a schedule normalises
newlines, and once is enough. -/
theorem parse_fromFile (text : String) :
    Schedule.parse (fromFile text) = Schedule.parse text := by
  rw [Schedule.parse, Schedule.parse, fromFile, String.toList_ofList,
    normalizeNewlines_of_not_mem (not_mem_normalizeNewlines text.toList)]

/-- Trimming brings no characters. What is left is a part of the text. -/
theorem mem_of_mem_trim {cs : List Char} {c : Char} (h : c ∈ trim cs) : c ∈ cs := by
  rw [trim, trimBy, List.mem_reverse] at h
  have inReverse := (List.dropWhile_sublist _).subset h
  exact (List.dropWhile_sublist _).subset (List.mem_reverse.mp inReverse)

/-- The characters of a field are characters of the text. By induction on the number of fields
that are still to be cut off. -/
theorem mem_of_mem_fields {n : Nat} {cs field : List Char} (h : field ∈ fields n cs) :
    ∀ c ∈ field, c ∈ cs := by
  have inside : ∀ {cs rest : List Char}, cs.dropWhile isBlank = rest → ∀ c ∈ rest, c ∈ cs := by
    rintro cs rest rfl c hc
    exact (List.dropWhile_sublist _).subset hc
  induction n generalizing cs with
  | zero =>
    unfold fields at h
    split at h
    · cases h
    · rw [List.mem_singleton.mp h]
      exact inside rfl
  | succ n ih =>
    unfold fields at h
    split at h
    · cases h
    · rcases List.mem_cons.mp h with rfl | h
      · exact fun c hc => inside rfl c ((List.takeWhile_sublist _).subset hc)
      · exact fun c hc => inside rfl c ((List.dropWhile_sublist _).subset (ih h c hc))

/-- The characters of a line are characters of the file. By induction on the text. -/
theorem mem_of_mem_fileLines {cs line : List Char} (h : line ∈ fileLines cs) :
    ∀ c ∈ line, c ∈ cs := by
  induction cs generalizing line with
  | nil => cases h
  | cons d cs ih =>
    intro c hc
    unfold fileLines at h
    split at h
    · rcases List.mem_cons.mp h with rfl | h
      · cases hc
      · exact List.mem_cons_of_mem _ (ih h c hc)
    · -- The character belongs to the first line of what follows, or it is a line of its own.
      unfold consLine at h
      split at h
      · rw [List.mem_singleton.mp h, List.mem_singleton] at hc
        rw [hc]
        exact List.mem_cons_self
      · rename_i first lines hlines
        rcases List.mem_cons.mp h with rfl | h
        · rcases List.mem_cons.mp hc with rfl | hc
          · exact List.mem_cons_self
          · exact List.mem_cons_of_mem _ (ih (hlines ▸ List.mem_cons_self) c hc)
        · exact List.mem_cons_of_mem _ (ih (hlines ▸ List.mem_cons_of_mem _ h) c hc)

/-- The value of a text without carriage returns has none. -/
theorem Value.noReturn_ofText {text : String} (h : Tickscript.NoReturn text) {value : Value}
    (hvalue : Value.ofText text = .ok value) : value.NoReturn := by
  unfold Value.ofText at hvalue
  split at hvalue
  · rename_i body hbody
    cases hvalue
    exact noReturn_literalBody? h hbody
  · split at hvalue
    · cases hvalue
      trivial
    · split at hvalue
      · cases hvalue
        trivial
      · cases hvalue

/-- The value of an event is on the event's line, so it has no carriage returns if the line has
none. -/
theorem SensorEvent.noReturn_ofLine {number : Nat} {line : List Char} (h : '\r' ∉ line)
    {event : SensorEvent} (hevent : SensorEvent.ofLine number line = .ok (some event)) :
    event.value.NoReturn := by
  unfold SensorEvent.ofLine at hevent
  dsimp only at hevent
  split at hevent
  · cases hevent
  · split at hevent
    · rename_i tick object property value hfields
      obtain ⟨n, -, hevent⟩ := bind_eq_ok hevent
      obtain ⟨v, hv, hevent⟩ := bind_eq_ok hevent
      cases hevent
      -- The value is the fourth field of the trimmed line.
      have mem : value ∈ (fields 3 (trim line)).map String.ofList := by
        rw [hfields]
        simp
      obtain ⟨field, hfield, rfl⟩ := List.mem_map.mp mem
      refine Value.noReturn_ofText ?_ hv
      rw [NoReturn, String.toList_ofList]
      intro hreturn
      exact h (mem_of_mem_trim (mem_of_mem_fields hfield _ hreturn))
    · cases hevent

/-- The values of a schedule have no carriage returns. By induction on the lines. -/
theorem noReturn_of_ofLines {number : Nat} {lines : List (List Char)}
    (h : ∀ line ∈ lines, '\r' ∉ line) {events : List SensorEvent}
    (hevents : Schedule.ofLines number lines = .ok events) :
    ∀ e ∈ events, e.value.NoReturn := by
  induction lines generalizing number events with
  | nil =>
    cases hevents
    exact List.forall_mem_nil _
  | cons line lines ih =>
    obtain ⟨first, hfirst, hevents⟩ := bind_eq_ok hevents
    obtain ⟨rest, hrest, hevents⟩ := bind_eq_ok hevents
    cases hevents
    intro e he
    rcases List.mem_append.mp he with he | he
    · rw [Option.mem_toList] at he
      rw [he] at hfirst
      exact SensorEvent.noReturn_ofLine (h line List.mem_cons_self) hfirst
    · exact ih (fun l hl => h l (List.mem_cons_of_mem _ hl)) hrest e he

/-- The same for the text of a schedule, which may have carriage returns itself: they are line
ends. -/
theorem noReturn_of_parse {text : String} {events : List SensorEvent}
    (h : Schedule.parse text = .ok events) : ∀ e ∈ events, e.value.NoReturn := by
  refine noReturn_of_ofLines (fun line hline hreturn => ?_) h
  exact not_mem_normalizeNewlines text.toList (mem_of_mem_fileLines hline _ hreturn)

end Tickscript
