import MonkeyLang.Text.Span
import MonkeyLang.Token.Kind

/-!
# What can be wrong with a program text

A parse error is a cause and the span of the token that it cites. Everything that a reader is
shown, the message, the code, the label at the token and the advice, follows from the cause.
-/

namespace MonkeyLang

/-- Why a statement could not be read. -/
inductive ParseError.Cause
  /-- Another kind of token had to stand here. -/
  | unexpectedToken (expected found : TokenKind)
  /-- No expression starts with this kind of token. -/
  | noOperand (kind : TokenKind)
  /-- An expression was due at a character that the language does not use. -/
  | illegalCharacter (literal : String)
  /-- An integer is too large. -/
  | integerTooLarge (literal : String)
  /-- An expression is nested more deeply than the limit allows. -/
  | nestingTooDeep (limit : Nat)
  deriving DecidableEq

/-- A cause, and the span of the token that it cites. -/
structure ParseError where
  cause : ParseError.Cause
  span : Span
  deriving DecidableEq

namespace ParseError

namespace Cause

/-- What went wrong, in one line. -/
def message : Cause → String
  | unexpectedToken expected found =>
    "expected next token to be " ++ expected.tag ++ ", got " ++ found.tag ++ " instead"
  | noOperand kind => "no prefix parse function for " ++ kind.tag ++ " found"
  | illegalCharacter literal => "illegal character '" ++ literal ++ "'"
  | integerTooLarge literal => "could not parse \"" ++ literal ++ "\" as integer"
  | nestingTooDeep limit => "expression nesting exceeds the limit of " ++ limit.repr ++ " levels"

/-- The fixed name of the cause, for tools. -/
def code : Cause → String
  | unexpectedToken _ _ => "monkey::parse::unexpected_token"
  | noOperand _ => "monkey::parse::no_prefix_rule"
  | illegalCharacter _ => "monkey::parse::illegal_character"
  | integerTooLarge _ => "monkey::parse::invalid_integer"
  | nestingTooDeep _ => "monkey::parse::nesting_too_deep"

/-- What a report writes at the cited token. -/
def label : Cause → String
  | unexpectedToken expected _ => "expected " ++ expected.tag ++ " here"
  | noOperand kind => kind.tag ++ " cannot start an expression"
  | illegalCharacter _ => "not part of the language"
  | integerTooLarge _ => "out of range for a 64-bit integer"
  | nestingTooDeep _ => "nesting limit reached here"

/-- Advice on how to mend the text, where there is any. -/
def help? : Cause → Option String
  | integerTooLarge _ =>
    some "integers must lie between -9223372036854775808 and 9223372036854775807"
  | nestingTooDeep _ =>
    some "split the expression with \x60let\x60 bindings, or raise --max-depth"
  | _ => none

end Cause

/-- What went wrong, in one line. -/
def message (e : ParseError) : String := e.cause.message

/-- The error with its span moved to the right by `n` bytes. -/
def shift (n : Nat) (e : ParseError) : ParseError := { e with span := e.span.shift n }

/-- The structure of an error: the cause's parts, then the span. -/
def dump (e : ParseError) : Dump :=
  match e.cause with
  | .unexpectedToken expected found =>
    .record "UnexpectedToken"
      [("expected", .text expected.tag), ("found", .text found.tag), ("span", e.span.dump)]
  | .noOperand kind =>
    .record "NoPrefixRule" [("kind", .text kind.tag), ("span", e.span.dump)]
  | .illegalCharacter literal =>
    .record "IllegalCharacter" [("literal", .text literal), ("span", e.span.dump)]
  | .integerTooLarge literal =>
    .record "InvalidInteger" [("literal", .text literal), ("span", e.span.dump)]
  | .nestingTooDeep limit =>
    .record "NestingTooDeep" [("limit", .nat limit), ("span", e.span.dump)]

end ParseError

end MonkeyLang
