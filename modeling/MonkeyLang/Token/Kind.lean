import MonkeyLang.Text.Dump
import MonkeyLang.Vocabulary.Keyword
import MonkeyLang.Vocabulary.Operator
import MonkeyLang.Vocabulary.Punctuation

/-!
# Kinds of token

What a token is, apart from its text: an identifier, an integer, one of the vocabulary's words
and signs, a character that the language does not use, or the end of the input. Each kind has a
tag, the name that messages give it, and no two kinds share one.
-/

namespace MonkeyLang

/-- What a token is. -/
inductive TokenKind
  | identifier
  | integer
  | keyword (k : Keyword)
  | operator (op : Operator)
  | punctuation (p : Punctuation)
  | illegal
  | endOfInput
  deriving DecidableEq

namespace TokenKind

/-- Every kind. -/
def all : List TokenKind :=
  [identifier, integer, illegal, endOfInput] ++ Keyword.all.map keyword ++
    Operator.all.map operator ++ Punctuation.all.map punctuation

/-- The name of a kind in messages. -/
def tag : TokenKind → String
  | identifier => "IDENT"
  | integer => "INT"
  | keyword k => k.tag
  | operator op => op.tag
  | punctuation p => p.tag
  | illegal => "ILLEGAL"
  | endOfInput => "EOF"

/-- The kind with a given tag, if there is one. -/
def ofTag? (tag : String) : Option TokenKind :=
  all.find? fun k ↦ k.tag == tag

/-- The keyword that a kind stands for, if it stands for one. -/
def keyword? : TokenKind → Option Keyword
  | keyword k => some k
  | _ => none

/-- The operator that a kind stands for, if it stands for one. -/
def operator? : TokenKind → Option Operator
  | operator op => some op
  | _ => none

/-- A kind starts a statement when it is a keyword that does. -/
def startsStatement : TokenKind → Bool
  | keyword k => k.startsStatement
  | _ => false

/-- The structure of a kind: a vocabulary item inside its table, or a name alone. -/
def dump : TokenKind → Dump
  | identifier => .atom "Ident"
  | integer => .atom "Int"
  | keyword k => .wrapped "Keyword" [.atom k.name]
  | operator op => .wrapped "Operator" [.atom op.name]
  | punctuation p => .wrapped "Punctuation" [.atom p.name]
  | illegal => .atom "Illegal"
  | endOfInput => .atom "Eof"

/-- A run of letters is a keyword if it is spelled like one, and an identifier otherwise. -/
def ofWord (word : String) : TokenKind :=
  match Keyword.ofSpelling? word with
  | some k => keyword k
  | none => identifier

theorem mem_all (k : TokenKind) : k ∈ all := by
  cases k with
  | keyword k => simp [all, Keyword.mem_all]
  | operator op => simp [all, Operator.mem_all]
  | punctuation p => simp [all, Punctuation.mem_all]
  | _ => simp [all]

/-- Exactly the two words that open a statement start one. -/
theorem startsStatement_iff {k : TokenKind} :
    k.startsStatement = true ↔ k = keyword .letWord ∨ k = keyword .returnWord := by
  cases k with
  | keyword k => cases k <;> decide
  | _ => simp [startsStatement]

end TokenKind

end MonkeyLang
