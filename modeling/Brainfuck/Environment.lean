import Brainfuck.Settings
import Brainfuck.Tape

/-!
# Environments

Where the memory size comes from when the command line does not give it: the environment variable
`BF_MEMORY_SIZE`, then the settings file, then the default.  What cannot be used counts as absent.
-/

namespace Brainfuck

/-- What a program finds around itself when it starts. -/
structure Environment where
  /-- The value of `BF_MEMORY_SIZE`, if it is set. -/
  sizeVariable : Option ByteArray
  /-- Whether `XDG_CONFIG_HOME` names a directory for settings. -/
  hasConfigHome : Bool
  /-- The settings file in that directory. -/
  configHomeSettings : Option ByteArray
  /-- The settings file in the directory `.config` of the user. -/
  userSettings : Option ByteArray

namespace Environment

/-- The settings file: a directory that is named takes the place of the user's. -/
def settingsFile? (env : Environment) : Option ByteArray :=
  if env.hasConfigHome then env.configHomeSettings else env.userSettings

/-- The memory size that the variable gives, if it is set to one. -/
def variableSize? (env : Environment) : Option Nat :=
  env.sizeVariable.bind fun bytes => (String.fromUTF8? bytes).bind memorySize?

/-- The memory size that the settings file gives, if there is a file and it sets one. -/
def settingsSize? (env : Environment) : Option Nat :=
  env.settingsFile?.bind fun bytes =>
    (String.fromUTF8? bytes).bind fun content => (Settings.parse content).memorySize

/-- The memory size to use, where `given` is that of the command line. -/
def resolveMemorySize (env : Environment) (given : Option Nat) : Nat :=
  match given, env.variableSize?, env.settingsSize? with
  | some size, _, _ => size
  | none, some size, _ => size
  | none, none, some size => size
  | none, none, none => defaultMemorySize

end Environment

end Brainfuck
