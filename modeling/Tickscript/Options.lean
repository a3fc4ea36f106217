import Tickscript.Numeral.Integer

/-!
# `Tickscript.Options`: command lines

A command line holds operands and options in any order. An option is given by one of its
spellings, or by the start of a long one if that fits no other, and its value follows it or is
attached with `=`. Short flags can be run together. A word that looks like a negative number, or
that holds a space, is an operand although it starts with a dash, and after `--` every word is.

Which words are options is settled for the whole line before any of them is used.

The separator `--` is never a value: it is taken out of what is given for an option or operand.
Where it stands alone, as in `--ticks=--`, nothing is left. Such a value is absent, and it is for
the tool to say what that means.
-/

set_option autoImplicit false

namespace Tickscript

open Tickscript.Numeral Tickscript.Text

/-- What follows an option. -/
inductive OptionKind where
  | flag
  | help
  | text
  | integer
deriving DecidableEq, Repr

/-- Whether an option takes a value. -/
def OptionKind.takesValue : OptionKind → Bool
  | .text | .integer => true
  | .flag | .help => false

/-- An option. -/
structure OptionSpec where
  name : String
  spellings : List String
  kind : OptionKind
deriving DecidableEq, Repr

/-- What a tool accepts: a number of operands, all required, and options. -/
structure Interface where
  operands : Nat
  options : List OptionSpec
deriving DecidableEq, Repr

/-- Why a command line is not carried out. -/
inductive OptionStop where
  | usage
  | help
deriving DecidableEq, Repr

/-- What a word of a command line is: an operand, the separator, an option with the value attached
to it by `=`, a short option with the characters that follow it in the word, or none of these. -/
inductive Slot where
  | operand (text : String)
  | separator
  | option (spec : OptionSpec) (attached : Option String)
  | cluster (spec : OptionSpec) (rest : List Char)
  | unknown
deriving DecidableEq, Repr

/-- What is given for an option or operand; `none` where nothing but the separator was. -/
abbrev Given := Option String

/-- The options and operands of a command line, in the order given. -/
structure Arguments where
  operands : List Given := []
  settings : List (String × Given) := []
deriving DecidableEq, Repr

/-- Whether an option was given. -/
def Arguments.has (a : Arguments) (name : String) : Bool :=
  a.settings.any (·.1 = name)

/-- All that is given for an option. -/
def Arguments.values (a : Arguments) (name : String) : List Given :=
  (a.settings.filter (·.1 = name)).map (·.2)

/-- What is given for an option: the last one counts. -/
def Arguments.value? (a : Arguments) (name : String) : Option Given :=
  (a.values name).getLast?

/-- The path given for an option. An empty path or an absent one asks for no file. -/
def Arguments.path? (a : Arguments) (name : String) : Option String :=
  match a.value? name with
  | some (some text) => if text = "" then none else some text
  | _ => none

/-- The integer given for an option; `some none` if the value is absent. -/
def Arguments.integer? (a : Arguments) (name : String) : Option (Option Int) :=
  (a.value? name).map fun value => value.bind fun text => (readInteger text).toOption

/-- The form of a negative number: a minus, then digits, or digits, a point and digits. One
newline may follow. -/
def looksNegative : List Char → Bool
  | '-' :: rest =>
    let body := if rest.getLast? = some '\n' then rest.dropLast else rest
    match body.dropWhile isDigit with
    | [] => !body.isEmpty
    | '.' :: fraction => !fraction.isEmpty && fraction.all isDigit
    | _ => false
  | _ => false

/-- Splits a word at its first equals sign. -/
def cutAtEquals? : List Char → Option (List Char × List Char)
  | [] => none
  | c :: rest =>
    if c = '=' then some ([], rest)
    else (cutAtEquals? rest).map fun cut => (c :: cut.1, cut.2)

namespace Interface

/-- The option with exactly this spelling. -/
def find? (i : Interface) (spelling : List Char) : Option OptionSpec :=
  i.options.find? fun spec => spec.spellings.any (·.toList = spelling)

/-- All options with each of their spellings. -/
def spelled (i : Interface) : List (OptionSpec × List Char) :=
  i.options.flatMap fun spec => spec.spellings.map fun spelling => (spec, spelling.toList)

/-- The options that a long word may be the start of. -/
def longMatches (i : Interface) (word : List Char) : List Slot :=
  let (start, attached) :=
    match cutAtEquals? word with
    | some (start, value) => (start, some (String.ofList value))
    | none => (word, none)
  i.spelled.filterMap fun (spec, spelling) =>
    if start.isPrefixOf spelling then some (.option spec attached) else none

/-- The short options that a word may be, with the rest of the word. -/
def shortMatches (i : Interface) (word : List Char) : List Slot :=
  i.spelled.filterMap fun (spec, spelling) =>
    if spelling = word.take 2 then some (.cluster spec (word.drop 2))
    else if word.isPrefixOf spelling then some (.option spec none)
    else none

/-- What a word that starts with a dash is, if no spelling and no value attached to one fits
it. -/
def guess (i : Interface) (word : List Char) : Except OptionStop Slot :=
  let fits := if word.take 2 = ['-', '-'] then i.longMatches word else i.shortMatches word
  match fits with
  | [slot] => .ok slot
  -- Several spellings fit, be they of one option or of two.
  | _ :: _ => .error .usage
  | [] =>
    if looksNegative word || word.contains ' ' then .ok (.operand (String.ofList word))
    else .ok .unknown

/-- What a word before `--` is. What is attached to a short option by `=` counts as run together
with it. -/
def slotOf (i : Interface) (text : String) : Except OptionStop Slot :=
  let word := text.toList
  if word.head? ≠ some '-' || word.length = 1 then .ok (.operand text)
  else
    match i.find? word with
    | some spec => .ok (.option spec none)
    | none =>
      match cutAtEquals? word with
      | some (start, value) =>
        match i.find? start with
        | some spec =>
          if start.length = 2 && !value.isEmpty then .ok (.cluster spec value)
          else .ok (.option spec (some (String.ofList value)))
        | none => i.guess word
      | none => i.guess word

/-- What the words of a command line are. -/
def slots (i : Interface) : List String → Except OptionStop (List Slot)
  | [] => .ok []
  -- Only the first `--` separates; every word after it, another `--` included, is an operand.
  | "--" :: rest => .ok (.separator :: rest.map .operand)
  | text :: rest => do
    let slot ← i.slotOf text
    let others ← i.slots rest
    return slot :: others

/-- The settings that a short option and the characters after it give. Each character is a short
option of its own, unless one of them takes the rest as its value. -/
def clusterSettings (i : Interface) (spec : OptionSpec) :
    List Char → Except OptionStop (List (OptionSpec × String))
  | [] => .ok [(spec, "")]
  | c :: rest =>
    if spec.kind.takesValue then .ok [(spec, String.ofList (c :: rest))]
    else
      match i.find? ['-', c] with
      | none => .error .usage
      | some next => do
        let others ← i.clusterSettings next rest
        return (spec, "") :: others

/-- What reading a command line has come to. `surplus` says that some word had no use; the line is
refused for it, but only at its end. `afterOperand` says that the last word was taken as an
operand, `afterSeparator` that the separator belongs to the next one. -/
structure Progress where
  arguments : Arguments := {}
  surplus : Bool := false
  afterOperand : Bool := false
  afterSeparator : Bool := false

/-- Adds a setting. -/
def Progress.record (p : Progress) (spec : OptionSpec) (value : Given) : Progress :=
  { p with
    arguments := { p.arguments with settings := p.arguments.settings ++ [(spec.name, value)] }
    afterOperand := false }

/-- Carries out one setting. -/
def Progress.apply (p : Progress) (spec : OptionSpec) (value : String) :
    Except OptionStop Progress :=
  match spec.kind with
  | .help => .error .help
  | .flag => .ok (p.record spec (some value))
  | .text => .ok (p.record spec (if value = "--" then none else some value))
  | .integer =>
    if value = "--" then .ok (p.record spec none)
    else
      match readInteger value with
      -- The text is kept as it was given; only that it can be read matters here.
      | .ok _ => .ok (p.record spec (some value))
      | .error _ => .error .usage

/-- Carries out settings one after the other. -/
def Progress.applyAll (p : Progress) : List (OptionSpec × String) → Except OptionStop Progress
  | [] => .ok p
  | (spec, value) :: rest => do
    let next ← p.apply spec value
    next.applyAll rest

/-- What a word that is an operand gives. A word `--` is the separator taken out of it, unless the
separator that precedes it is. -/
def Progress.given (p : Progress) (text : String) : Given :=
  if text = "--" && !p.afterSeparator then none else some text

/-- Takes an operand, if one is still wanted. -/
def Progress.take (i : Interface) (p : Progress) (text : String) : Progress :=
  if p.arguments.operands.length < i.operands then
    { p with
      arguments := { p.arguments with operands := p.arguments.operands ++ [p.given text] }
      afterOperand := true
      afterSeparator := false }
  else { p with surplus := true, afterOperand := false, afterSeparator := false }

/-- Reads the words of a command line. The separator belongs to the operand right before it, else
to the one after it; if there is neither, it is surplus. -/
def consume (i : Interface) (p : Progress) : List Slot → Except OptionStop Progress
  | [] => .ok { p with surplus := p.surplus || p.afterSeparator }
  | .operand text :: rest => i.consume (p.take i text) rest
  | .unknown :: rest => i.consume { p with surplus := true, afterOperand := false } rest
  | .separator :: rest => i.consume { p with afterSeparator := !p.afterOperand } rest
  | .cluster spec glued :: rest => do
    let settings ← i.clusterSettings spec glued
    let next ← p.applyAll settings
    i.consume next rest
  | .option spec (some value) :: rest =>
    if spec.kind.takesValue then do i.consume (← p.apply spec value) rest
    else .error .usage
  | .option spec none :: rest =>
    if spec.kind.takesValue then
      match rest with
      | .operand value :: rest => do i.consume (← p.apply spec value) rest
      | _ => .error .usage
    else do i.consume (← p.apply spec "") rest

/-- Reads a command line. -/
def parse (i : Interface) (words : List String) : Except OptionStop Arguments := do
  let p ← i.consume {} (← i.slots words)
  if p.surplus || p.arguments.operands.length < i.operands then throw .usage
  return p.arguments

end Interface

/-- The option that asks for help; every tool has it. -/
def helpOption : OptionSpec := ⟨"help", ["-h", "--help"], .help⟩

/-- The option that asks for more messages. -/
def verboseOption : OptionSpec := ⟨"verbose", ["-v", "--verbose"], .flag⟩

end Tickscript
