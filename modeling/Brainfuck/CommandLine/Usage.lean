/-!
# Usage texts

What the programs print to show how they are used, under the name by which they were started.
-/

namespace Brainfuck.CommandLine.Usage

/-- How the program with commands is used. -/
def commands (program : String) : String :=
  "Usage:\n" ++
  "  " ++ program ++ " run [--debug|-d] [--memory-size N] \"<code>\"      " ++
    "# Run Brainfuck code (args are concatenated)\n" ++
  "  " ++ program ++ " run [--debug|-d] [--memory-size N] --file <PATH> " ++
    "# Run Brainfuck code loaded from file\n" ++
  "\n" ++
  "Run \"" ++ program ++ " <subcommand> --help\" for more info.\n" ++
  "\n"

/-- How the command `run` is used. -/
def run (program : String) : String :=
  "Usage:\n" ++
  "  " ++ program ++ " run [--debug|-d] [--memory-size N] \"<code>\"\n" ++
  "  " ++ program ++ " run [--debug|-d] [--memory-size N] --file <PATH>\n" ++
  "\n" ++
  "Options:\n" ++
  "  --file,        -f <PATH>  Read Brainfuck code from PATH instead of positional \"<code>\"\n" ++
  "  --memory-size, -m <N>     Number of tape cells (default 30000, or BF_MEMORY_SIZE)\n" ++
  "  --debug,       -d         Print a step-by-step table of operations to stderr\n" ++
  "  --help,        -h         Show this help\n" ++
  "\n" ++
  "Notes:\n" ++
  "- Characters outside of Brainfuck's ><+-.,[] are comments and are ignored.\n" ++
  "- Cells hold values from 0 to 1114111 and never wrap; leaving that range is an error.\n" ++
  "- Input (`,`) reads one UTF-8 character from stdin; running out of input is an error.\n" ++
  "- Output (`.`) writes the cell's code point as a character; a newline follows the program's " ++
    "output.\n" ++
  "\n" ++
  "Examples:\n" ++
  "- Load Brainfuck code from a file:\n" ++
  "    " ++ program ++ " run --file ./program.bf\n" ++
  "- Echo the first two characters of a file (`,` consumes stdin):\n" ++
  "    " ++ program ++ " run \",.,.\" < input.txt\n" ++
  "\n"

/-- How the program without options is used. -/
def codeOnly (program : String) : String :=
  "Usage:\n" ++
  "  " ++ program ++ " \"<code>\"   # Run Brainfuck code provided as CLI arguments " ++
    "(they will be concatenated)\n" ++
  "\n" ++
  "Notes:\n" ++
  "- Input (`,`) reads one UTF-8 character from stdin; running out of input is an error.\n" ++
  "- Any characters outside of Brainfuck's ><+-.,[] are ignored.\n" ++
  "\n"

end Brainfuck.CommandLine.Usage
