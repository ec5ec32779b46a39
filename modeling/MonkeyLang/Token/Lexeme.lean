import MonkeyLang.Token.Kind

/-!
# Lexemes

The first lexeme of a text is the longest run of letters, or of digits, if one stands there;
else a sign; else one character that the language does not use. Blanks separate lexemes and
belong to none. Letters and digits are those of ASCII.

A sign is known by its characters and not by the tables of the vocabulary: behind two of the
characters one more is looked at, and all others are signs alone, or none.

What is read and what is left over are the text again (`text_append_rest`), and something is
always read (`text_ne_nil`).
-/

namespace MonkeyLang

/-- A blank is a space, a tab, a newline or a carriage return. -/
def isBlank (c : Char) : Bool :=
  c == ' ' || c == '\t' || c == '\n' || c == '\r'

/-- A letter is one of the ASCII letters or the underscore. -/
def isLetter (c : Char) : Bool :=
  c.isAlpha || c == '_'

namespace TokenKind

/-- The kind of a character that is read alone: a sign, or a character without a use. -/
def ofChar : Char → TokenKind
  | '=' => operator .assign
  | '!' => operator .bang
  | '+' => operator .plus
  | '-' => operator .minus
  | '*' => operator .asterisk
  | '/' => operator .slash
  | '<' => operator .lt
  | '>' => operator .gt
  | ',' => punctuation .comma
  | ';' => punctuation .semicolon
  | '(' => punctuation .lparen
  | ')' => punctuation .rparen
  | '\x7b' => punctuation .lbrace
  | '\x7d' => punctuation .rbrace
  | _ => illegal

/-- The kind of a sign that a character makes with the next one, if they make one. -/
def ofPair? : Char → Char → Option TokenKind
  | '=', '=' => some (operator .eqEq)
  | '!', '=' => some (operator .notEq)
  | _, _ => none

end TokenKind

/-- The first lexeme of a text, with what follows it. -/
structure Lexeme where
  kind : TokenKind
  text : List Char
  rest : List Char

namespace Lexeme

/-- A run of the characters with a property, `c` the first of them. -/
def run (p : Char → Bool) (kind : List Char → TokenKind) (c : Char) (cs : List Char) : Lexeme :=
  ⟨kind (c :: cs.takeWhile p), c :: cs.takeWhile p, cs.dropWhile p⟩

/-- A sign of one character, or a character without a use. -/
def single (c : Char) (cs : List Char) : Lexeme :=
  ⟨.ofChar c, [c], cs⟩

/-- A sign of two characters, if the one behind `c` makes one with it; else what `c` makes
alone. -/
def sign (c : Char) : List Char → Lexeme
  | [] => single c []
  | d :: cs =>
    match TokenKind.ofPair? c d with
    | some kind => ⟨kind, [c, d], cs⟩
    | none => single c (d :: cs)

/-- The first lexeme of the text `c :: cs`, where `c` is no blank. -/
def first (c : Char) (cs : List Char) : Lexeme :=
  if isLetter c then run isLetter (fun word ↦ .ofWord (String.ofList word)) c cs
  else if c.isDigit then run Char.isDigit (fun _ ↦ .integer) c cs
  else sign c cs

/-- A sign, or a character without a use, and what follows it are the text. -/
theorem sign_text_append_rest (c : Char) (cs : List Char) :
    (sign c cs).text ++ (sign c cs).rest = c :: cs := by
  cases cs with
  | nil => rfl
  | cons d cs =>
    rw [sign]
    split <;> rfl

/-- Nothing is lost: the lexeme and what follows it are the text. -/
theorem text_append_rest (c : Char) (cs : List Char) :
    (first c cs).text ++ (first c cs).rest = c :: cs := by
  rw [first]
  split
  · simp [run]
  · split
    · simp [run]
    · exact sign_text_append_rest c cs

/-- Something is always read, and it begins where the text does. -/
theorem head?_text (c : Char) (cs : List Char) : (first c cs).text.head? = some c := by
  rw [first]
  split
  · rfl
  · split
    · rfl
    · cases cs with
      | nil => rfl
      | cons d cs =>
        rw [sign]
        split <;> rfl

theorem text_ne_nil (c : Char) (cs : List Char) : (first c cs).text ≠ [] := by
  intro h
  have := head?_text c cs
  simp [h] at this

/-- So what follows is shorter than the text. -/
theorem length_rest_lt (c : Char) (cs : List Char) :
    (first c cs).rest.length < (c :: cs).length := by
  have whole := congrArg List.length (text_append_rest c cs)
  have some_text := List.length_pos_iff.2 (text_ne_nil c cs)
  rw [List.length_append] at whole
  omega

end Lexeme

end MonkeyLang
