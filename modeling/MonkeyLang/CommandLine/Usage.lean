/-!
# Help

What the program prints about itself: its forms of use, its options, and nothing that depends
on how it was called.
-/

namespace MonkeyLang.CommandLine

/-- The version of the program. -/
def version : String := "0.1.0"

/-- What is shown when the version is asked for. -/
def versionLine : String := "monkey " ++ version ++ "\n"

/-- The forms of use. -/
def usageText : String :=
  "Usage: monkey [OPTIONS] [FILE]\n       monkey [OPTIONS] repl [--mode MODE]\n"

/-- What is shown when help is asked for. -/
def helpText : String :=
  "Lexer and parser for the Monkey programming language\n\n" ++ usageText ++
  "\nCommands:\n" ++
  "  repl            Start the interactive read loop\n" ++
  "  help            Print this message\n" ++
  "\nArguments:\n" ++
  "  FILE            File to parse and write in its canonical form\n" ++
  "\nOptions:\n" ++
  "  --lex FILE      List the tokens of a file\n" ++
  "  --parse FILE    Dump the tree of a file\n" ++
  "  --max-depth N   Maximum expression nesting depth [default: 256]\n" ++
  "  --mode MODE     What the read loop prints for a line: tokens or ast\n" ++
  "  -h, --help      Print help\n" ++
  "  -V, --version   Print the version\n"

end MonkeyLang.CommandLine
