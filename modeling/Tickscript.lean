import Tickscript.Main
import Tickscript.Proofs.Script.Correctness
import Tickscript.Proofs.Machine.Refusal
import Tickscript.Proofs.Machine.Atomic
import Tickscript.Proofs.Numeral.ReadBack
import Tickscript.Proofs.ProgramText.Rereading
import Tickscript.Proofs.Source.Pieces
import Tickscript.Proofs.ProgramText.Faithful
import Tickscript.Proofs.Generator.Acceptance
import Tickscript.Proofs.Generator.Relocation
import Tickscript.Proofs.Source.Lines
import Tickscript.Proofs.Source.Segments
import Tickscript.Proofs.Source.Concatenation
import Tickscript.Proofs.Machine.Tracing
import Tickscript.Proofs.Session.Files
import Tickscript.Proofs.Tool.FileRun
import Tickscript.Proofs.Generator.Landings
import Tickscript.Proofs.Machine.Messages
import Tickscript.Proofs.Generator.Assignment
import Tickscript.Proofs.Machine.Accumulation
import Tickscript.Proofs.Source.Assignments
import Tickscript.Proofs.Machine.PlainOutputs
import Tickscript.Proofs.ProgramText.Newlines
import Tickscript.Proofs.Session.Locations
import Tickscript.Proofs.Options.Flags
import Tickscript.Proofs.Tool.Artifacts
import Tickscript.Proofs.Tool.Verification
import Tickscript.Proofs.Generator.Grammar
import Tickscript.Proofs.Generator.Confinement
import Tickscript.Proofs.Machine.LastWriter
import Tickscript.Proofs.Machine.TickLimit
import Tickscript.Proofs.Generator.Forward
import Tickscript.Proofs.Machine.LoopFree
import Tickscript.Proofs.Schedule.RoundTrip
import Tickscript.Proofs.Machine.Counting
import Tickscript.Proofs.Source.Matches
import Tickscript.Proofs.Source.LexicalErrors
import Tickscript.Proofs.Diff.Alignment
import Tickscript.Proofs.Diff.Replay
import Tickscript.Proofs.ProgramText.Length
import Tickscript.Proofs.Tool.Compilation
import Tickscript.Proofs.Tool.MissingArtifacts
import Tickscript.Proofs.Machine.Branching
import Tickscript.Proofs.Machine.Conservation
