import MonkeyLang.Parse.Statement
import MonkeyLang.Token.Cursor

/-!
# Parsing programs

Parsing a text attempts its statements one after the other. Those that could be read are the
program, and the errors of the others are its errors, each in order; a text with errors still has
a program. A parser holds the tokens that are left and the errors so far. Reading a program off
it takes all tokens, so a second program read off it is empty.
-/

namespace MonkeyLang

/-- The tokens still to be parsed, and the errors met so far. -/
structure Parser where
  frame : Frame
  pending : List Token
  errors : List ParseError

namespace Parser

/-- A parser for the text from a place on. -/
def ofCursor (config : Config) (c : Cursor) : Parser := ⟨⟨config, c.stop⟩, c.pending, []⟩

/-- Read the program that is left. -/
def readProgram (p : Parser) : Program × Parser :=
  let attempts := p.frame.attempts p.pending
  (⟨attempts.filterMap Attempt.statement?⟩,
    { p with pending := [], errors := p.errors ++ attempts.filterMap Attempt.error? })

/-- With no tokens left, the program read is empty, and no error is added. -/
theorem readProgram_of_pending_nil {p : Parser} (h : p.pending = []) :
    p.readProgram = (⟨[]⟩, p) := by
  obtain ⟨frame, pending, errors⟩ := p
  subst h
  simp [readProgram]

end Parser

/-- A program with every error that was met while reading it. -/
structure ParseOutput where
  program : Program
  errors : List ParseError
  deriving DecidableEq

namespace ParseOutput

/-- A parse has errors when at least one was met. -/
def hasErrors (o : ParseOutput) : Bool := !o.errors.isEmpty

/-- The program, unless there were errors. -/
def toExcept (o : ParseOutput) : Except (List ParseError) Program :=
  if o.errors.isEmpty then .ok o.program else .error o.errors

end ParseOutput

/-- Parse the text from a place on. -/
def Cursor.parse (config : Config) (c : Cursor) : ParseOutput :=
  let (program, parser) := (Parser.ofCursor config c).readProgram
  ⟨program, parser.errors⟩

/-- Parse a source text. -/
def parse (config : Config) (source : String) : ParseOutput :=
  (Cursor.start source).parse config

end MonkeyLang
