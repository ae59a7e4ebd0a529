import Brainfuck.Main
import Brainfuck.Tape.Operation
import Brainfuck.Proofs.Nesting
import Brainfuck.Proofs.Pairing
import Brainfuck.Proofs.Loops
import Brainfuck.Proofs.Run
import Brainfuck.Proofs.TapeBounds
import Brainfuck.Proofs.Safety
import Brainfuck.Proofs.Refinement
import Brainfuck.Proofs.Start
import Brainfuck.Proofs.Effects
import Brainfuck.Proofs.Lockstep
import Brainfuck.Proofs.Progress
import Brainfuck.Proofs.Sessions
import Brainfuck.Proofs.Tracing
import Brainfuck.Proofs.DebugOption
import Brainfuck.Proofs.MemoryGrowth
import Brainfuck.Proofs.Demand
import Brainfuck.Proofs.Multiplication
import Brainfuck.Proofs.Encoding
import Brainfuck.Proofs.Requests
import Brainfuck.Proofs.Decoding
import Brainfuck.Proofs.InputPaths
import Brainfuck.Proofs.Failures
import Brainfuck.Proofs.TraceLog
import Brainfuck.Proofs.OutputFailure
import Brainfuck.Proofs.Replies
import Brainfuck.Proofs.Comments
import Brainfuck.Proofs.ProgramText
import Brainfuck.Proofs.CodeFiles
import Brainfuck.Proofs.CodeOrigin
import Brainfuck.Proofs.ExitStatus
import Brainfuck.Proofs.IdealTape
import Brainfuck.Proofs.SizeSources
import Brainfuck.Proofs.CodeOnly
import Brainfuck.Proofs.Idle
import Brainfuck.Proofs.Windows
import Brainfuck.Proofs.Reports
import Brainfuck.Proofs.Trimming
import Brainfuck.Proofs.Numerals
import Brainfuck.Proofs.SettingsFile
import Brainfuck.Proofs.SizeSpellings
import Brainfuck.Proofs.Copying
import Brainfuck.Proofs.Rows
import Brainfuck.Proofs.OptionOrder
import Brainfuck.Proofs.CodeFiles
