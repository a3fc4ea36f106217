import Tickscript.Instr
import Tickscript.Lexeme
import Tickscript.Text.Blank
import Tickscript.Text.Lines

/-!
# `Tickscript.ProgramText`: programs as text

A program is written with one instruction a line and read back line by line. A word of a line is a
literal between double quotes, or a run of characters that are not blank; a quote that is not
closed on its line belongs to such a run. Empty lines are skipped. The numbered listing is for
readers only.
-/

set_option autoImplicit false

namespace Tickscript

open Tickscript.Text Tickscript.Numeral

/-- Why a text is not a program. Lines are counted from one. -/
inductive DecodeFault where
  | unknownInstruction (word : String) (line : Nat)
  | badJump (line : Nat)
  | target (fault : IntegerFault)
deriving DecidableEq, Repr

/-- The wording of a fault. -/
def DecodeFault.message : DecodeFault → String
  | .unknownInstruction word line =>
    "unknown instruction " ++ quote word ++ " at line " ++ toString line
  | .badJump line => "bad jump at line " ++ toString line
  | .target fault => fault.message

/-- The first word of a text that starts with the character `c`, and the rest after it; `none` if
`c` is blank. -/
def wordAt? (c : Char) (cs : List Char) : Option (List Char × List Char) :=
  let run := (c :: cs.takeWhile (! isBlank ·), cs.dropWhile (! isBlank ·))
  if c = '"' then
    match cutAtQuote? cs with
    | some (body, rest) => some ('"' :: body ++ ['"'], rest)
    | none => some run
  else if isBlank c then none
  else some run

/-- The rest after a word is no longer than the text after its first character. -/
theorem length_of_wordAt? {c : Char} {cs word rest : List Char}
    (h : wordAt? c cs = some (word, rest)) : rest.length ≤ cs.length := by
  have run : (cs.dropWhile (! isBlank ·)).length ≤ cs.length := by
    have sum :=
      congrArg List.length (List.takeWhile_append_dropWhile (p := (! isBlank ·)) (l := cs))
    simp only [List.length_append] at sum
    omega
  unfold wordAt? at h
  split at h
  · split at h
    · rename_i hcut
      simp only [Option.some.injEq, Prod.mk.injEq] at h
      have sum := congrArg List.length (cutAtQuote?_append hcut)
      simp only [List.length_append, List.length_cons, h.2] at sum
      omega
    · simp only [Option.some.injEq, Prod.mk.injEq] at h
      exact h.2 ▸ run
  · split at h
    · simp at h
    · simp only [Option.some.injEq, Prod.mk.injEq] at h
      exact h.2 ▸ run

/-- The words of a line. -/
def words : List Char → List (List Char)
  | [] => []
  | c :: cs =>
    match _h : wordAt? c cs with
    | some (word, rest) => word :: words rest
    | none => words cs
termination_by cs => cs.length
decreasing_by
  · have := length_of_wordAt? _h
    simp only [List.length_cons]
    omega
  · simp

/-- The instruction that the words of a line stand for. The words are not empty. -/
def Instr.ofWords (line : Nat) (first : String) (rest : List String) :
    Except DecodeFault Instr :=
  match Opcode.ofWord? first with
  | none => .error (.unknownInstruction first line)
  | some .jump =>
    match rest with
    | target :: condition :: args =>
      match readInteger target with
      | .ok n => .ok (Instr.jumpTo n (condition :: args))
      | .error fault => .error (.target fault)
    | _ => .error (.badJump line)
  | some opcode => .ok (Instr.plain opcode rest)

/-- The instruction of a line, `none` if the line is empty. -/
def Instr.ofLine (number : Nat) (line : List Char) : Except DecodeFault (Option Instr) :=
  match (words line).map String.ofList with
  | [] => .ok none
  | first :: rest => (Instr.ofWords number first rest).map some

/-- The instructions of lines that are numbered from `number` on. -/
def decodeLines (number : Nat) : List (List Char) → Except DecodeFault (List Instr)
  | [] => .ok []
  | line :: rest => do
    let instr ← Instr.ofLine number line
    let code ← decodeLines (number + 1) rest
    return instr.toList ++ code

/-- The program that a text stands for. -/
def decode (text : String) : Except DecodeFault (List Instr) :=
  decodeLines 1 (splitLines text.toList)

/-- The lines of a program. -/
def renderAll (code : List Instr) : Except RenderFault (List String) :=
  code.mapM Instr.render

/-- The text of a program. -/
def encode (code : List Instr) : Except RenderFault String :=
  (renderAll code).map fun lines => String.join (lines.map (· ++ "\n"))

/-- Fills a text with spaces on the right. -/
def padRight (width : Nat) (text : String) : String :=
  text ++ String.ofList (List.replicate (width - text.length) ' ')

/-- A program with the address of each instruction in front; all addresses take the same room. -/
def listing (code : List Instr) : Except RenderFault String :=
  (renderAll code).map fun lines =>
    let width := (toString (lines.length - 1)).length
    String.join ((lines.zipIdx).map fun entry =>
      padRight width (toString entry.2) ++ ". " ++ entry.1 ++ "\n")

end Tickscript
