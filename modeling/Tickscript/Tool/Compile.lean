import Tickscript.Session

/-!
# `Tickscript.Tool.Compile`: the compiler as a tool

Compiles a source file to a program file, and on request also writes a listing and shows the
tokens. Nothing is written unless the source compiles.
-/

set_option autoImplicit false

namespace Tickscript.Tool

open Tickscript.Session

/-- Operands are the source and the program file. -/
def compileInterface : Interface where
  operands := 2
  options :=
    [helpOption, ⟨"listing", ["--listing"], .text⟩, ⟨"tokens", ["--tokens"], .flag⟩,
      verboseOption]

/-- The word for a level in a log line. -/
def levelWord : Notice.Level → String
  | .info => "INFO"
  | .warning => "WARNING"

/-- The log line of a notice. Without `verbose` only warnings are shown, and without their
level. -/
def noticeLine (verbose : Bool) (n : Notice) : String :=
  if verbose then levelWord n.level ++ " translator.codegen: " ++ n.message ++ "\n"
  else if n.level = .warning then n.message ++ "\n"
  else ""

/-- Shows notices. -/
def showNotices (verbose : Bool) (notices : List Notice) : Session Unit :=
  printErr (String.join (notices.map (noticeLine verbose)))

/-- Compiles the text of a source file; an error is shown with the name of the file. -/
def compileSource (path source : String) (verbose tokens : Bool) : Session (List Instr) := do
  match Token.parse .standard source with
  | .error e => giveUp (path ++ ": " ++ e.message)
  | .ok statements =>
    if tokens then printOut (Token.listing statements ++ "\n")
    let compiled := compileTokens .standard statements
    showNotices verbose compiled.notices
    match compiled.result with
    | .ok code => return code
    | .error fault => giveUp (path ++ ": " ++ fault.message)

/-- The tool. -/
def compile (words : List String) : Session Unit := do
  let args ← arguments compileInterface words
  let path ← operand args 0
  let source ← readText (.ofText path)
  let code ← compileSource path source (args.has "verbose") (args.has "tokens")
  let target ← operand args 1
  writeRendered (.ofText target) (encode code)
  match args.path? "listing" with
  | some list => writeRendered (.ofText list) (listing code)
  | none => pure ()

end Tickscript.Tool
