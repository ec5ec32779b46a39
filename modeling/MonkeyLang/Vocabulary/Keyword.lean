import MonkeyLang.Vocabulary.Since

/-!
# Keywords

The four reserved words. A word of the source is reserved exactly when it is spelled like one
of them, letter case included; every other word is an identifier.
-/

namespace MonkeyLang

/-- A reserved word. -/
inductive Keyword
  | letWord
  | returnWord
  | trueWord
  | falseWord
  deriving DecidableEq

namespace Keyword

/-- What a keyword is for. -/
inductive Category
  | binding
  | controlFlow
  | literal
  deriving DecidableEq

/-- What kind of phrase a keyword starts. -/
inductive Usage
  | statement
  | expression
  deriving DecidableEq

/-- Every keyword, in table order. -/
def all : List Keyword := [letWord, returnWord, trueWord, falseWord]

theorem mem_all (k : Keyword) : k ∈ all := by
  cases k <;> decide

/-- The one spelling of a keyword. -/
def spelling : Keyword → String
  | letWord => "let"
  | returnWord => "return"
  | trueWord => "true"
  | falseWord => "false"

/-- The name of a keyword in dumps. -/
def name : Keyword → String
  | letWord => "Let"
  | returnWord => "Return"
  | trueWord => "True"
  | falseWord => "False"

/-- The name of a keyword in messages. -/
def tag : Keyword → String
  | letWord => "LET"
  | returnWord => "RETURN"
  | trueWord => "TRUE"
  | falseWord => "FALSE"

/-- What a keyword is for. -/
def category : Keyword → Category
  | letWord => .binding
  | returnWord => .controlFlow
  | trueWord => .literal
  | falseWord => .literal

/-- The phrases that a keyword starts. -/
def usage : Keyword → List Usage
  | letWord => [.statement]
  | returnWord => [.statement]
  | trueWord => [.expression]
  | falseWord => [.expression]

/-- Every keyword has been there from the first version on. -/
def since (_ : Keyword) : Since := ⟨0, 1⟩

/-- Every keyword is settled. -/
def stability (_ : Keyword) : Stability := .stable

/-- A keyword starts a statement when statements are among its uses. -/
def startsStatement (k : Keyword) : Bool :=
  k.usage.contains .statement

/-- The keyword with a given spelling, if there is one. -/
def ofSpelling? (text : String) : Option Keyword :=
  all.find? fun k ↦ k.spelling == text

/-- Two keywords with one spelling are one keyword. -/
theorem spelling_injective {a b : Keyword} (h : a.spelling = b.spelling) : a = b := by
  revert h
  cases a <;> cases b <;> decide

/-- The lookup finds exactly the keyword with the spelling asked for. -/
theorem ofSpelling?_eq_some_iff {text : String} {k : Keyword} :
    ofSpelling? text = some k ↔ k.spelling = text := by
  constructor
  · intro h
    simpa using List.find?_some h
  · rintro rfl
    cases k <;> decide

end Keyword

end MonkeyLang
