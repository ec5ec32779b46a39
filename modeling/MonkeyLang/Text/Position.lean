/-!
# Lines and columns

A byte offset into a source text has a line and a column, both counted from one; a column counts
characters. The position of an offset is reached by walking over the characters that start
before it. So an offset inside a character has the position of the next boundary, and one past
the end of the text has that of the end.
-/

namespace MonkeyLang

/-- A line and a column in a text, both counted from one. -/
structure Position where
  line : Nat
  column : Nat
  deriving DecidableEq

namespace Position

/-- The position of the first character. -/
def first : Position := ⟨1, 1⟩

/-- The position behind a character: a newline starts the next line, and any other character
takes one column. -/
def after (p : Position) (c : Char) : Position :=
  if c = '\n' then ⟨p.line + 1, 1⟩ else ⟨p.line, p.column + 1⟩

/-- Walk on from `p` over the characters that start within the next `n` bytes. -/
def walk (p : Position) (n : Nat) : List Char → Position
  | [] => p
  | c :: cs => if n = 0 then p else walk (p.after c) (n - c.utf8Size) cs

/-- The position of a byte offset into a text. -/
def ofOffset (source : String) (offset : Nat) : Position :=
  walk first offset source.toList

/-- A walk over no bytes stays where it is. -/
@[simp] theorem walk_zero (p : Position) (cs : List Char) : walk p 0 cs = p := by
  cases cs <;> simp [walk]

/-- A position is written as its two numbers with a colon between them. -/
def render (p : Position) : String :=
  p.line.repr ++ ":" ++ p.column.repr

end Position

end MonkeyLang
