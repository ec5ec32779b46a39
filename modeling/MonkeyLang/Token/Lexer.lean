import MonkeyLang.Token.Cursor

/-!
# Reading tokens one at a time

A lexer holds a source text, its place in it, and whether it has handed out the end of the
input as the last item of an iteration. Asking for a token outright never looks at that mark
and never sets it; iterating does both, so an iteration ends once and stays ended until the
lexer is set back to the start.
-/

namespace MonkeyLang

/-- A source text with a place in it and the mark of a finished iteration. -/
structure Lexer where
  source : String
  cursor : Cursor
  done : Bool

namespace Lexer

/-- A lexer at the start of a text. -/
def ofSource (source : String) : Lexer := ⟨source, .start source, false⟩

/-- Back to the start, with nothing handed out. -/
def reset (l : Lexer) : Lexer := ofSource l.source

/-- The next token. The end of the input may be taken any number of times. -/
def nextToken (l : Lexer) : Token × Lexer :=
  let (t, c) := l.cursor.next
  (t, { l with cursor := c })

/-- The next item of an iteration: a token, the end of the input once, then nothing. -/
def next? (l : Lexer) : Option Token × Lexer :=
  if l.done then (none, l)
  else
    let (t, c) := l.cursor.next
    (some t, { l with cursor := c, done := decide (t.kind = .endOfInput) })

/-- The remaining items of an iteration. -/
def drain (l : Lexer) : List Token × Lexer :=
  if l.done then ([], l)
  else (l.cursor.tokens, { l with cursor := ⟨l.cursor.stop, []⟩, done := true })

end Lexer

end MonkeyLang
