import Tickscript.Proofs.Session.Files
import Tickscript.Proofs.Text.Newlines
import Tickscript.Tool.Run

/-!
# `Tickscript.Proofs.Schedule.RoundTrip`: schedules written and read

A schedule file has a line for each event, `tick object property value`, and between them there
may be blank lines and lines that start with `#`. Here such a file is written: integers in
decimal, texts between double quotes, everything else as it is. Reading it gives the same events
in the same order (`readSchedule_of_writeText`).

Nothing in a text is escaped, so it has to be seen that nothing of it is lost. The line starts
with a sign or a digit and ends with a digit or a quote, so trimming takes nothing away
(`Framed.trim`) and the line is not taken for a comment. The first three fields are cut off at the
spaces behind them (`fields_succ`), and the fourth takes the rest of the line, whatever blanks it
has (`Framed.fields`). The quotes that are removed are the first and the last character; quotes
inside stay. Only the end of a line could cut a text short, so texts must not hold newlines or
carriage returns.
-/

set_option autoImplicit false

namespace Tickscript

open Tickscript.Text Tickscript.Numeral

/-! ### Written schedules -/

/-- The text of a value on a line. Only integers and texts are written, see `Value.Writable`. -/
def Value.written : Value → String
  | .int n => toString n
  | .text s => "\"" ++ s ++ "\""
  | _ => ""

/-- A text that stays on one line of a file. Files know two of the ten line breaks only. -/
def KeepsLine (text : String) : Prop :=
  ∀ c ∈ text.toList, c ≠ '\n' ∧ c ≠ '\r'

/-- The characters of a text can be looked at one by one. -/
instance (text : String) : Decidable (KeepsLine text) :=
  List.decidableBAll _ _

/-- A value that can be written: an integer that does not have too many digits, or a text on one
line. -/
def Value.Writable : Value → Prop
  | .int n => n.natAbs < Nat.pow 10 digitLimit
  | .text s => KeepsLine s
  | _ => False

/-- Each kind of value is decided by itself. The other two kinds are never written. -/
instance : (v : Value) → Decidable v.Writable
  | .int n => inferInstanceAs (Decidable (n.natAbs < Nat.pow 10 digitLimit))
  | .text s => inferInstanceAs (Decidable (KeepsLine s))
  | .null => .isFalse id
  | .float _ => .isFalse id

/-- A text that is one field of a line: it is not empty and has no blanks. Quotes and `#` may be
anywhere in it. -/
structure IsField (text : String) : Prop where
  ne : text.toList ≠ []
  solid : ∀ c ∈ text.toList, isBlank c = false

/-- Both parts can be computed. -/
instance (text : String) : Decidable (IsField text) :=
  decidable_of_iff (text.toList.isEmpty = false ∧ text.toList.all (! isBlank ·) = true)
    ⟨fun h => ⟨by simpa using h.1, by simpa using h.2⟩,
      fun h => ⟨by simpa using h.ne, by simpa using h.solid⟩⟩

/-- An event that can be written. The tick may be negative, and so may an integer that is the
value. -/
structure SensorEvent.Writable (e : SensorEvent) : Prop where
  tick : e.tick.natAbs < Nat.pow 10 digitLimit
  object : IsField e.object
  property : IsField e.property
  value : e.value.Writable

/-- All four parts can be decided. -/
instance (e : SensorEvent) : Decidable e.Writable :=
  decidable_of_iff (e.tick.natAbs < Nat.pow 10 digitLimit ∧ IsField e.object ∧
    IsField e.property ∧ e.value.Writable)
    ⟨fun h => ⟨h.1, h.2.1, h.2.2.1, h.2.2.2⟩, fun h => ⟨h.tick, h.object, h.property, h.value⟩⟩

/-- The line of an event: its four parts with a space between two of them. -/
def SensorEvent.written (e : SensorEvent) : String :=
  " ".intercalate [toString e.tick, e.object, e.property, e.value.written]

/-- A line of a schedule file: an event, or one of the two kinds of lines without an event. What
makes a line one of its kind is part of it, so every list of lines is a file. -/
inductive ScheduleLine where
  | event (e : SensorEvent) (writable : e.Writable)
  | blank (text : String) (blanks : ∀ c ∈ text.toList, isBlank c = true) (keeps : KeepsLine text)
  | comment (text : String) (keeps : KeepsLine text)

namespace ScheduleLine

/-- The text of a line. A comment has its mark in front. -/
def text : ScheduleLine → String
  | .event e _ => e.written
  | .blank text _ _ => text
  | .comment text _ => "#" ++ text

/-- The event of a line, if it has one. -/
def event? : ScheduleLine → Option SensorEvent
  | .event e _ => some e
  | _ => none

/-- The events of lines, in their order. -/
def events (lines : List ScheduleLine) : List SensorEvent :=
  lines.filterMap event?

/-- The text of a file. There is a newline between two lines, and behind the last one if the file
is `closed`. -/
def fileText (lines : List ScheduleLine) (closed : Bool) : String :=
  "\n".intercalate (lines.map text) ++ if closed then "\n" else ""

end ScheduleLine

/-! ### Trimming and fields -/

/-- A text that is not empty and has no blanks at its ends. Inside there may be blanks. -/
structure Framed (cs : List Char) : Prop where
  ne : cs ≠ []
  head : ∀ c ∈ cs.head?, isBlank c = false
  last : ∀ c ∈ cs.getLast?, isBlank c = false

/-- A field has no blanks at all. -/
theorem IsField.framed {text : String} (h : IsField text) : Framed text.toList where
  ne := h.ne
  head := fun c hc => h.solid c (List.mem_of_mem_head? hc)
  last := fun c hc => h.solid c (List.mem_of_getLast? hc)

/-- The head of a text in two parts is that of the first part, if this is not empty. -/
theorem Framed.head?_append {cs : List Char} (h : Framed cs) (rest : List Char) :
    (cs ++ rest).head? = cs.head? := by
  obtain ⟨c, cs, rfl⟩ := List.exists_cons_of_ne_nil h.ne
  rfl

/-- Between two framed texts there may be a space. The line of an event is put together in this
way. -/
theorem Framed.append {first rest : List Char} (hfirst : Framed first) (hrest : Framed rest) :
    Framed (first ++ ' ' :: rest) where
  ne := List.append_ne_nil_of_left_ne_nil hfirst.ne _
  head := by
    rw [hfirst.head?_append]
    exact hfirst.head
  last := by
    -- The last character is that of the second text, as this is not empty.
    obtain ⟨c, rest, rfl⟩ := List.exists_cons_of_ne_nil hrest.ne
    have last : (first ++ ' ' :: c :: rest).getLast? = (c :: rest).getLast? := by
      rw [List.getLast?_append, List.getLast?_cons_cons,
        List.getLast?_eq_some_getLast (List.cons_ne_nil c rest), Option.some_or]
    rw [last]
    exact hrest.last

/-- Nothing is trimmed from a framed text. -/
theorem Framed.trim {cs : List Char} (h : Framed cs) : trim cs = cs :=
  trimBy_of_ends h.head h.last

/-- A text that starts with a character to be kept is only trimmed at its end. So a comment keeps
its mark, whatever blanks it ends with. -/
theorem head?_trim {c : Char} (h : isBlank c = false) (cs : List Char) :
    (trim (c :: cs)).head? = some c := by
  have keep : ¬isBlank c = true := by simp [h]
  rw [Text.trim, trimBy, List.dropWhile_cons_of_neg keep, List.head?_reverse, List.reverse_cons,
    List.dropWhile_append]
  split
  · rw [List.dropWhile_cons_of_neg keep]
    rfl
  · exact List.getLast?_concat

/-- Nothing is left of blanks, so a blank line has no content. -/
theorem trim_of_blanks {cs : List Char} (h : ∀ c ∈ cs, isBlank c = true) : trim cs = [] := by
  rw [trim, trimBy, List.dropWhile_eq_nil_iff.mpr h]
  rfl

/-- A word with a space behind it is cut off. The rest is looked at with one field less. -/
theorem fields_succ {word : String} (h : IsField word) (n : Nat) (rest : List Char) :
    fields (n + 1) (word.toList ++ ' ' :: rest) = word.toList :: fields n rest := by
  -- The space is skipped with the blanks in front of what comes next.
  have skip : fields n (' ' :: rest) = fields n rest := by
    cases n <;> simp only [fields, List.dropWhile_cons_of_pos (show isBlank ' ' = true by decide)]
  have run : ∀ c ∈ word.toList, (!isBlank c) = true := by
    intro c hc
    simp [h.solid c hc]
  have start : (word.toList ++ ' ' :: rest).dropWhile isBlank = word.toList ++ ' ' :: rest := by
    obtain ⟨c, cs, hword⟩ := List.exists_cons_of_ne_nil h.ne
    have solid : isBlank c = false := h.solid c (hword ▸ List.mem_cons_self)
    rw [hword, List.cons_append, List.dropWhile_cons_of_neg (by simp [solid])]
  have taken : (word.toList ++ ' ' :: rest).takeWhile (! isBlank ·) = word.toList := by
    rw [List.takeWhile_append_of_pos run, List.takeWhile_cons_of_neg (by decide), List.append_nil]
  have dropped : (word.toList ++ ' ' :: rest).dropWhile (! isBlank ·) = ' ' :: rest := by
    rw [List.dropWhile_append_of_pos run, List.dropWhile_cons_of_neg (by decide)]
  rw [fields, start]
  split
  · rename_i empty
    exact absurd (List.append_eq_nil_iff.mp empty).1 h.ne
  · rw [taken, dropped, skip]

/-- The rest of a line is one field, with all the blanks inside. This is the fourth field, the
value. -/
theorem Framed.fields {cs : List Char} (h : Framed cs) : fields 0 cs = [cs] := by
  obtain ⟨c, cs, rfl⟩ := List.exists_cons_of_ne_nil h.ne
  rw [Text.fields, List.dropWhile_cons_of_neg (by simp [h.head c rfl])]

/-- The text of an integer is one field, as it has a minus and digits only. -/
theorem isField_toString (n : Int) : IsField (toString n) where
  ne := by
    rw [toList_toString]
    split
    · exact List.cons_ne_nil _ _
    · exact Nat.toDigits_ne_nil
  solid := fun c => of_mem_toString (P := fun c => isBlank c = false) (by decide) (by decide)

/-- Line ends are blanks, so a field stays on its line. Only texts have to be asked for this. -/
theorem IsField.keepsLine {text : String} (h : IsField text) : KeepsLine text := by
  intro c hc
  have solid := h.solid c hc
  constructor
  · rintro rfl
    exact absurd solid (by decide)
  · rintro rfl
    exact absurd solid (by decide)

/-! ### Values -/

/-- The characters of a text that is written as a value. -/
theorem toList_quoted (s : String) :
    (Value.written (.text s)).toList = '"' :: s.toList ++ ['"'] := by
  simp [Value.written]

/-- The quotes that are taken away are those that were put around the text. Quotes inside are not
looked at. -/
theorem literalBody?_quoted (s : String) : literalBody? (Value.written (.text s)) = some s := by
  rw [literalBody?, toList_quoted]
  simp

namespace Value.Writable

variable {v : Value}

/-- Only integers and texts are written. The lemmas below have these two cases. -/
theorem cases (h : v.Writable) :
    (∃ n : Int, v = .int n ∧ n.natAbs < Nat.pow 10 digitLimit) ∨
      ∃ s, v = .text s ∧ KeepsLine s := by
  cases v with
  | int n => exact Or.inl ⟨n, rfl, h⟩
  | text s => exact Or.inr ⟨s, rfl, h⟩
  | null => exact h.elim
  | float x => exact h.elim

/-- A value is read back from its text. An integer is no literal, and a text between quotes is
nothing else. -/
theorem ofText_written (h : v.Writable) : Value.ofText v.written = .ok v := by
  rcases h.cases with ⟨n, rfl, short⟩ | ⟨s, rfl, -⟩
  · rw [Value.written, Value.ofText, literalBody?_toString]
    simp only [readLiteral?_toString short]
  · rw [Value.ofText, literalBody?_quoted]

/-- What is written for a value has no blanks at its ends: a text has its quotes there. -/
theorem framed (h : v.Writable) : Framed v.written.toList := by
  rcases h.cases with ⟨n, rfl, -⟩ | ⟨s, rfl, -⟩
  · exact (isField_toString n).framed
  · have quote : ∀ c ∈ some '"', isBlank c = false := by
      rintro c ⟨⟩
      decide
    rw [toList_quoted]
    exact ⟨by simp, quote, by rwa [List.getLast?_concat]⟩

/-- What is written for a value stays on its line. -/
theorem keepsLine (h : v.Writable) : KeepsLine v.written := by
  rcases h.cases with ⟨n, rfl, -⟩ | ⟨s, rfl, keeps⟩
  · exact (isField_toString n).keepsLine
  · intro c hc
    rw [toList_quoted, List.mem_append, List.mem_cons, List.mem_singleton] at hc
    rcases hc with (rfl | hc) | rfl
    · decide
    · exact keeps c hc
    · decide

end Value.Writable

/-! ### Lines -/

namespace SensorEvent

variable {e : SensorEvent}

/-- The characters of the line of an event, part by part. -/
theorem toList_written (e : SensorEvent) :
    e.written.toList = (toString e.tick).toList ++ ' ' ::
      (e.object.toList ++ ' ' :: (e.property.toList ++ ' ' :: e.value.written.toList)) := by
  simp [written, String.intercalate_cons_cons]

/-- The line of an event is one line. -/
theorem Writable.keepsLine (h : e.Writable) : KeepsLine e.written := by
  intro c hc
  simp only [toList_written, List.mem_append, List.mem_cons] at hc
  rcases hc with hc | rfl | hc | rfl | hc | rfl | hc
  · exact (isField_toString e.tick).keepsLine c hc
  · decide
  · exact h.object.keepsLine c hc
  · decide
  · exact h.property.keepsLine c hc
  · decide
  · exact h.value.keepsLine c hc

/-- **An event is read back from its line.** The line is neither blank nor a comment, and it has
the four fields that were written. -/
theorem Writable.ofLine_written (h : e.Writable) (number : Nat) :
    SensorEvent.ofLine number e.written.toList = .ok (some e) := by
  have tick := isField_toString e.tick
  have whole : Framed e.written.toList := by
    rw [toList_written]
    exact tick.framed.append (h.object.framed.append (h.property.framed.append h.value.framed))
  -- The line starts with the tick, whatever the object is called.
  have noComment : e.written.toList.head? ≠ some '#' := by
    rw [toList_written, tick.framed.head?_append]
    intro sharp
    exact of_mem_toString (P := fun c => c ≠ '#') (by decide) (by decide)
      (List.mem_of_mem_head? sharp) rfl
  have four : fields 3 e.written.toList =
      [(toString e.tick).toList, e.object.toList, e.property.toList, e.value.written.toList] := by
    rw [toList_written, fields_succ tick, fields_succ h.object, fields_succ h.property,
      h.value.framed.fields]
  have content : (e.written.toList.isEmpty || e.written.toList.head? = some '#') = false := by
    simp [noComment, whole.ne]
  simp only [SensorEvent.ofLine, whole.trim, content, four, List.map_cons, List.map_nil,
    String.ofList_toList, readInteger_toString h.tick, h.value.ofText_written]
  rfl

end SensorEvent

namespace ScheduleLine

/-- A line is read as its event, or skipped. The number of the line is only for faults, and there
are none. -/
theorem ofLine_text (line : ScheduleLine) (number : Nat) :
    SensorEvent.ofLine number line.text.toList = .ok line.event? := by
  cases line with
  | event e writable => exact writable.ofLine_written number
  | blank text blanks keeps =>
    simp only [SensorEvent.ofLine, ScheduleLine.text, trim_of_blanks blanks]
    rfl
  | comment text keeps =>
    -- A comment is looked at after it was trimmed.
    have sharp : (trim (ScheduleLine.text (.comment text keeps)).toList).head? = some '#' := by
      rw [ScheduleLine.text, String.toList_append]
      exact head?_trim (by decide) _
    simp only [SensorEvent.ofLine, sharp, decide_true, Bool.or_true, if_true]
    rfl

/-- Every line is one line. -/
theorem keepsLine (line : ScheduleLine) : KeepsLine line.text := by
  cases line with
  | event e writable => exact writable.keepsLine
  | blank text blanks keeps => exact keeps
  | comment text keeps =>
    intro c hc
    rw [ScheduleLine.text, String.toList_append, List.mem_append] at hc
    rcases hc with hc | hc
    · rw [List.mem_singleton.mp hc]
      decide
    · exact keeps c hc

/-- The event of the first line comes first. This is the form in which the reader adds an
event. -/
@[simp] theorem events_cons (line : ScheduleLine) (rest : List ScheduleLine) :
    events (line :: rest) = line.event?.toList ++ events rest := by
  cases h : line.event? <;> simp [events, h]

end ScheduleLine

/-! ### Files -/

namespace Text

/-- The first line of a file ends at the first newline. By induction on the line. -/
theorem fileLines_append {line : List Char} (h : '\n' ∉ line) (rest : List Char) :
    fileLines (line ++ '\n' :: rest) = line :: fileLines rest := by
  induction line with
  | nil => rfl
  | cons c line ih =>
    rw [List.mem_cons, not_or] at h
    rw [List.cons_append, fileLines, if_neg (Ne.symm h.1), ih h.2, consLine]

/-- The last line of a file may end without a newline. It is a line if it is not empty. -/
theorem fileLines_of_not_mem {line : List Char} (ne : line ≠ []) (h : '\n' ∉ line) :
    fileLines line = [line] := by
  induction line with
  | nil => exact absurd rfl ne
  | cons c line ih =>
    rw [List.mem_cons, not_or] at h
    rw [fileLines, if_neg (Ne.symm h.1)]
    cases line with
    | nil => rfl
    | cons d line => rw [ih (List.cons_ne_nil d line) h.2, consLine]

end Text

namespace ScheduleLine

/-- No line of a schedule holds a newline. -/
theorem not_newline (line : ScheduleLine) : '\n' ∉ line.text.toList :=
  fun mem => (line.keepsLine _ mem).1 rfl

/-- The first of two lines or more has a newline behind it. What follows is the text of the
others. -/
theorem toList_fileText_cons_cons (line next : ScheduleLine) (rest : List ScheduleLine)
    (closed : Bool) :
    (fileText (line :: next :: rest) closed).toList =
      line.text.toList ++ '\n' :: (fileText (next :: rest) closed).toList := by
  simp [fileText, String.intercalate_cons_cons, String.append_assoc]

/-- A written file has no carriage returns, so its newlines are not changed when it is read. -/
theorem noReturn_fileText (lines : List ScheduleLine) (closed : Bool) :
    NoReturn (fileText lines closed) := by
  have texts : ∀ t ∈ lines.map text, NoReturn t := by
    intro t ht
    obtain ⟨line, -, rfl⟩ := List.mem_map.mp ht
    exact fun mem => (line.keepsLine _ mem).2 rfl
  have ending : NoReturn (if closed then "\n" else "") := by
    cases closed <;> decide
  exact (noReturn_intercalate (by decide) texts).append ending

/-- The lines of a written file are read in their order. By induction on the lines, where the last
one is a case of its own because it may have no newline. -/
theorem ofLines_fileText (lines : List ScheduleLine) (closed : Bool) (number : Nat) :
    Schedule.ofLines number (fileLines (fileText lines closed).toList) = .ok (events lines) := by
  induction lines generalizing number with
  | nil => cases closed <;> rfl
  | cons line rest ih =>
    -- One line is read as its event, and what follows it by the hypothesis.
    have step {after : List (List Char)} {found : List SensorEvent}
        (h : Schedule.ofLines (number + 1) after = .ok found) :
        Schedule.ofLines number (line.text.toList :: after) =
          .ok (line.event?.toList ++ found) := by
      rw [Schedule.ofLines, line.ofLine_text, h]
      rfl
    rw [events_cons]
    cases rest with
    | cons next rest =>
      rw [toList_fileText_cons_cons, fileLines_append line.not_newline]
      exact step (ih (number + 1))
    | nil =>
      cases closed with
      | true =>
        have whole : (fileText [line] true).toList = line.text.toList ++ '\n' :: [] := by
          simp [fileText]
        rw [whole, fileLines_append line.not_newline]
        exact step rfl
      | false =>
        have whole : (fileText [line] false).toList = line.text.toList := by simp [fileText]
        rw [whole]
        by_cases empty : line.text.toList = []
        · -- An empty last line is not there, and it has no event either.
          have skipped := line.ofLine_text number
          rw [empty] at skipped
          rw [empty, ← Except.ok.inj skipped]
          rfl
        · rw [fileLines_of_not_mem empty line.not_newline]
          exact step rfl

/-- The text of a written file is read as its events. -/
theorem parse_fileText (lines : List ScheduleLine) (closed : Bool) :
    Schedule.parse (fileText lines closed) = .ok (events lines) := by
  rw [Schedule.parse, normalizeNewlines_of_not_mem (noReturn_fileText lines closed),
    ofLines_fileText]

end ScheduleLine

namespace Tool

/-- **Schedules survive a file.** The events of the text of lines are those of the lines, in their
order. Where the text can be written to a file, reading the file gives these events, and changes
nothing. -/
theorem readSchedule_of_writeText (lines : List ScheduleLine) (closed : Bool) :
    Schedule.parse (ScheduleLine.fileText lines closed) = .ok (ScheduleLine.events lines) ∧
      ∀ (path : PathName) (w : Workspace) (tree : FileTree),
        w.tree.write path (ScheduleLine.fileText lines closed).toUTF8 = .ok tree →
        (do
          Session.writeText path (ScheduleLine.fileText lines closed)
          readSchedule path).run w = .ok (ScheduleLine.events lines) { w with tree } := by
  have parsed := ScheduleLine.parse_fileText lines closed
  refine ⟨parsed, ?_⟩
  intro path w tree written
  -- What was written is read back as bytes, and the bytes as the text.
  have bytes : (Session.readBytes path).run { w with tree } = .ok _ { w with tree } :=
    Session.readBytes_run (FileTree.read_of_write written)
  have events : Schedule.ofBytes (ScheduleLine.fileText lines closed).toUTF8 =
      .ok (ScheduleLine.events lines) := by
    rw [Schedule.ofBytes, Utf8.decode_toUTF8]
    exact parsed
  rw [Session.run_bind_of_ok (Session.writeText_run_of_ok written), readSchedule,
    Session.run_bind_of_ok bytes, events]
  rfl

/-- Quotes, `#` and blanks in a text, and `#` as the name of an object, between lines that are
skipped. -/
theorem readSchedule_of_odd_texts :
    let text := "# 1 a b 2\n\t\u2003\n-3 a# \"b\" \" \"#\u2028\t\"\n\n0 # c -120"
    let path := PathName.ofText "plan"
    let w : Workspace := { tree := {} }
    ∃ tree, w.tree.write path text.toUTF8 = .ok tree ∧
      (do Session.writeText path text; readSchedule path).run w =
        .ok [{ tick := -3, object := "a#", property := "\"b\"", value := .text " \"#\u2028\t" },
          { tick := 0, object := "#", property := "c", value := .int (-120) }]
          { w with tree } := by
  let lines : List ScheduleLine :=
    [.comment " 1 a b 2" (by decide),
      .blank "\t\u2003" (List.all_eq_true.mp (by decide)) (by decide),
      .event { tick := -3, object := "a#", property := "\"b\"", value := .text " \"#\u2028\t" }
        (by decide +kernel),
      .blank "" (List.all_eq_true.mp rfl) (by decide),
      .event { tick := 0, object := "#", property := "c", value := .int (-120) }
        (by decide +kernel)]
  intro text path w
  have same : ScheduleLine.fileText lines false = text := by decide +kernel
  have place : path.guarded (w.tree.placeFor path) = .ok ["plan"] :=
    eq_ok_of_toOption (by decide +kernel)
  have written : w.tree.write path text.toUTF8 = .ok (w.tree.withFile ["plan"] text.toUTF8) := by
    rw [FileTree.write_eq, place]
    rfl
  rw [← same] at written ⊢
  exact ⟨_, written, (readSchedule_of_writeText lines false).2 path w _ written⟩

end Tool

end Tickscript
