import MonkeyLang.Vocabulary.Since

/-!
# Punctuation

The six signs that separate or enclose phrases.
-/

namespace MonkeyLang

/-- A punctuation sign. -/
inductive Punctuation
  | comma
  | semicolon
  | lparen
  | rparen
  | lbrace
  | rbrace
  deriving DecidableEq

namespace Punctuation

/-- What a sign does to the phrases around it. -/
inductive Category
  | delimiter
  | separator
  deriving DecidableEq

/-- Every sign, in table order. -/
def all : List Punctuation := [comma, semicolon, lparen, rparen, lbrace, rbrace]

theorem mem_all (p : Punctuation) : p ∈ all := by
  cases p <;> decide

/-- The one spelling of a sign. -/
def spelling : Punctuation → String
  | comma => ","
  | semicolon => ";"
  | lparen => "("
  | rparen => ")"
  | lbrace => "\x7b"
  | rbrace => "\x7d"

/-- The name of a sign in dumps. -/
def name : Punctuation → String
  | comma => "Comma"
  | semicolon => "Semicolon"
  | lparen => "LParen"
  | rparen => "RParen"
  | lbrace => "LBrace"
  | rbrace => "RBrace"

/-- The name of a sign in messages. -/
def tag : Punctuation → String
  | comma => "COMMA"
  | semicolon => "SEMICOLON"
  | lparen => "LPAREN"
  | rparen => "RPAREN"
  | lbrace => "LBRACE"
  | rbrace => "RBRACE"

/-- What a sign does to the phrases around it. -/
def category : Punctuation → Category
  | comma => .separator
  | semicolon => .separator
  | lparen => .delimiter
  | rparen => .delimiter
  | lbrace => .delimiter
  | rbrace => .delimiter

/-- Every sign has been there from the first version on. -/
def since (_ : Punctuation) : Since := ⟨0, 1⟩

/-- Every sign is settled. -/
def stability (_ : Punctuation) : Stability := .stable

/-- The sign with a given spelling, if there is one. -/
def ofSpelling? (text : String) : Option Punctuation :=
  all.find? fun p ↦ p.spelling == text

/-- The lookup finds exactly the sign with the spelling asked for. -/
theorem ofSpelling?_eq_some_iff {text : String} {p : Punctuation} :
    ofSpelling? text = some p ↔ p.spelling = text := by
  constructor
  · intro h
    simpa using List.find?_some h
  · rintro rfl
    cases p <;> decide

end Punctuation

end MonkeyLang
