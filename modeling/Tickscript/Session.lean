import Tickscript.Compile
import Tickscript.Fault
import Tickscript.FileTree
import Tickscript.Options
import Tickscript.Schedule
import Tickscript.Text.Lines

/-!
# `Tickscript.Session`: how tools act

A tool reads and writes files and prints on two channels, and it can stop early. What it has
printed and written until then stays. A session is such an activity as a function on a workspace,
so that what a tool does can be stated as an equation.
-/

set_option autoImplicit false

namespace Tickscript

open Tickscript.Text

/-- What an absent value was needed for: a file, the folder of the artifacts, the names of cases,
the limit of a run, or the ticks of a case. -/
inductive AbsentValue where
  | file
  | folder
  | names
  | limit
  | ticks
deriving DecidableEq, Repr

/-- The wording for an absent value. -/
def AbsentValue.message : AbsentValue → String
  | .file => "expected str, bytes or os.PathLike object, not list"
  | .folder => "unsupported operand type(s) for /: 'PosixPath' and 'list'"
  | .names => "unhashable type: 'list'"
  | .limit => "'<' not supported between instances of 'int' and 'list'"
  | .ticks => "int() argument must be a string, a bytes-like object or a real number, not 'list'"

/-- A problem that a tool does not handle. -/
inductive Failure where
  | compile (error : CompileError)
  | render (fault : RenderFault)
  | decode (fault : DecodeFault)
  | machine (fault : Fault)
  | schedule (fault : ScheduleFault)
  | file (fault : FileFault)
  | encoding (fault : Utf8.Fault)
  | absent (value : AbsentValue)

/-- The wording of a failure. -/
def Failure.message : Failure → String
  | .compile error => error.message
  | .render fault => fault.message
  | .decode fault => fault.message
  | .machine fault => fault.message
  | .schedule fault => fault.message
  | .file fault => fault.message
  | .encoding fault => fault.message
  | .absent value => value.message

/-- The failure of a compilation. -/
def CompileFault.toFailure : CompileFault → Failure
  | .source error => .compile error
  | .render fault => .render fault

/-- How a tool stops before its end: with an exit code of its own, or by a failure. -/
inductive Stop where
  | exit (code : Nat)
  | failure (problem : Failure)

/-- What a tool works on. -/
structure Workspace where
  tree : FileTree
  stdout : String := ""
  stderr : String := ""

/-- An activity on a workspace. It keeps the workspace when it stops early. -/
abbrev Session := EStateM Stop Workspace

namespace Session

/-- Prints on the first channel. -/
def printOut (text : String) : Session Unit :=
  modify fun w => { w with stdout := w.stdout ++ text }

/-- Prints on the second channel. -/
def printErr (text : String) : Session Unit :=
  modify fun w => { w with stderr := w.stderr ++ text }

/-- Goes on with a result, or fails. -/
def orFail {ε α : Type} (toFailure : ε → Failure) : Except ε α → Session α
  | .ok a => pure a
  | .error e => throw (.failure (toFailure e))

/-- Prints a last line on the second channel and stops with exit code one. -/
def giveUp {α : Type} (line : String) : Session α := do
  printErr (line ++ "\n")
  throw (.exit 1)

/-- Goes on with a value, unless it is absent. -/
def present {α : Type} (use : AbsentValue) : Option α → Session α
  | some a => pure a
  | none => throw (.failure (.absent use))

/-- The path that an operand gives. -/
def operand (args : Arguments) (index : Nat) : Session String :=
  present .file ((args.operands[index]?).join)

/-- The bytes of a file. -/
def readBytes (path : PathName) : Session ByteArray := do
  orFail .file ((← get).tree.read path)

/-- The text that the bytes of a file stand for. -/
def textOf (bytes : ByteArray) : Session String := do
  return fromFile (← orFail .encoding (Utf8.decode bytes))

/-- The text of a file. -/
def readText (path : PathName) : Session String := do
  textOf (← readBytes path)

/-- Writes a file. -/
def writeText (path : PathName) (text : String) : Session Unit := do
  let w ← get
  let tree ← orFail .file (w.tree.write path text.toUTF8)
  set { w with tree }

/-- Empties a file, then writes the text if there is one. A file whose text cannot be made stays
empty. -/
def writeRendered (path : PathName) (text : Except RenderFault String) : Session Unit := do
  writeText path ""
  writeText path (← orFail .render text)

/-- Reads a command line. Help ends a tool with success, a line that cannot be read with exit code
two. -/
def arguments (i : Interface) (words : List String) : Session Arguments :=
  match i.parse words with
  | .ok a => pure a
  | .error .help => throw (.exit 0)
  | .error .usage => throw (.exit 2)

end Session

/-- How a tool ended. -/
structure Outcome where
  stop : Option Stop
  workspace : Workspace

/-- Runs a session on a tree of files. -/
def Session.outcome (session : Session Unit) (tree : FileTree) : Outcome :=
  match session.run { tree } with
  | .ok _ w => ⟨none, w⟩
  | .error stop w => ⟨some stop, w⟩

end Tickscript
