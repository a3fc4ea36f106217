import Tickscript.Generator
import Tickscript.ProgramText
import Tickscript.Token.Classify

/-!
# `Tickscript.Compile`: from source text to program text

The whole way of a source text. Notices are kept also when the compilation fails; code is not.
-/

set_option autoImplicit false

namespace Tickscript

/-- Why a source text has no program text. The second case does not arise: generated code has no
unset target. -/
inductive CompileFault where
  | source (error : CompileError)
  | render (fault : RenderFault)
deriving DecidableEq, Repr

/-- The wording of a fault. -/
def CompileFault.message : CompileFault → String
  | .source error => error.message
  | .render fault => fault.message

/-- The outcome of a compilation, with the notices given on the way. -/
structure Compilation (α : Type) where
  result : Except CompileFault α
  notices : List Notice := []

/-- The instructions that a list of statements compiles to. -/
def compileTokens (m : Mnemonics) (statements : List (List Token)) : Compilation (List Instr) :=
  match Generator.generate m {} statements with
  | (g, none) => ⟨.ok g.code, g.notices⟩
  | (g, some e) => ⟨.error (.source e), g.notices⟩

/-- The instructions that a source text compiles to. -/
def compileCode (v : Vocabulary) (m : Mnemonics) (source : String) : Compilation (List Instr) :=
  match Token.parse v source with
  | .ok statements => compileTokens m statements
  | .error e => ⟨.error (.source e), []⟩

/-- The program text that a source text compiles to. -/
def compileText (v : Vocabulary) (m : Mnemonics) (source : String) : Compilation String :=
  let compiled := compileCode v m source
  match compiled.result with
  | .ok code => ⟨(encode code).mapError .render, compiled.notices⟩
  | .error fault => ⟨.error fault, compiled.notices⟩

/-- The program text of a source text in the standard language. -/
def compile (source : String) : Except CompileFault String :=
  (compileText .standard .standard source).result

end Tickscript
