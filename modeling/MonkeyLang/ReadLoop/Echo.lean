import MonkeyLang.Parse.Program

/-!
# What the read loop answers

The loop answers a line in one of two ways. It shows the tokens of the line, each on a line of
its own; or it shows the written form of the line's program, if the line parses, and otherwise
the message of every error, each on a line of its own behind a tab. The answer is a list of
pieces, and each is written as a whole.
-/

namespace MonkeyLang.ReadLoop

/-- What the loop shows for a line. -/
inductive Mode
  | tokens
  | tree
  deriving DecidableEq

namespace Mode

/-- The word that selects a mode. -/
def spelling : Mode → String
  | tokens => "tokens"
  | tree => "ast"

/-- The mode that a word selects, if it selects one. -/
def ofSpelling? (word : String) : Option Mode :=
  [tokens, tree].find? fun m ↦ m.spelling == word

end Mode

/-- A line for each token of the text. -/
def tokenEcho (line : String) : List String :=
  (Cursor.start line).pending.map fun t ↦ t.render ++ "\n"

/-- The written form of the text, or a line for each of its errors. -/
def treeEcho (config : Config) (line : String) : List String :=
  let output := parse config line
  if output.hasErrors then output.errors.map fun e ↦ "\t" ++ e.message ++ "\n"
  else [output.program.render ++ "\n"]

/-- The pieces that the loop shows for a line. -/
def echo (mode : Mode) (config : Config) (line : String) : List String :=
  match mode with
  | .tokens => tokenEcho line
  | .tree => treeEcho config line

end MonkeyLang.ReadLoop
