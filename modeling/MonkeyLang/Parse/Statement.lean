import MonkeyLang.Gather
import MonkeyLang.Parse.Expression
import MonkeyLang.Tree.Program

/-!
# Reading statements

A statement is read by its first token: a binding, a return, or else a bare expression. A
semicolon behind it belongs to it. A statement that fails is given up up to a boundary: the
semicolon that ends it, or the next token that starts a binding or a return. So an attempt at a
statement, failed or not, leaves strictly fewer tokens behind it (`Attempt.length_rest_lt`), and
reading a program is nothing but attempts, one after the other.
-/

namespace MonkeyLang

namespace Frame

variable (f : Frame)

/-- An expression with all levels left, and the semicolon behind it. -/
def readValue (tokens : List Token) : Reading Expr :=
  (f.readExpression f.config.maxDepth .lowest tokens).map .withSemicolon

/-- A binding, of which the first token was read: a name, the sign of assignment, a value. -/
def readLet (first : Token) (rest : List Token) : Reading Statement :=
  match f.expect .identifier first rest with
  | .error e => .error e
  | .ok name =>
    match f.expect (.operator .assign) name.last name.rest with
    | .error e => .error e
    | .ok sign => (f.readValue sign.rest).map (.map (.letStatement name.value.text))

/-- The statement that starts with the token `first`. -/
def readStatement (first : Token) (rest : List Token) : Reading Statement :=
  match first.kind with
  | .keyword .letWord => f.readLet first rest
  | .keyword .returnWord => (f.readValue rest).map (.map .returnStatement)
  | _ => (f.readValue (first :: rest)).map (.map .expressionStatement)

theorem stand_readValue_suffix (tokens : List Token) : (f.readValue tokens).stand <:+ tokens := by
  have inside := f.stand_readExpression_suffix f.config.maxDepth .lowest tokens
  rw [readValue]
  cases h : f.readExpression f.config.maxDepth .lowest tokens with
  | error e => rwa [h] at inside
  | ok p =>
    rw [h] at inside
    exact p.stand_withSemicolon_suffix.trans inside

theorem stand_readLet_suffix (first : Token) (rest : List Token) :
    (f.readLet first rest).stand <:+ first :: rest := by
  rw [readLet]
  have toName := f.stand_expect_suffix .identifier (by decide) first rest
  split
  · rename_i e he
    rwa [he] at toName
  · rename_i name hn
    rw [hn] at toName
    have toSign :=
      (f.stand_expect_suffix (.operator .assign) (by decide) name.last name.rest).trans toName
    split
    · rename_i e he
      rwa [he] at toSign
    · rename_i sign hs
      rw [hs] at toSign
      rw [Reading.stand_map]
      exact ((f.stand_readValue_suffix sign.rest).trans (List.suffix_cons _ _)).trans toSign

/-- A statement is read inside its tokens. -/
theorem stand_readStatement_suffix (first : Token) (rest : List Token) :
    (f.readStatement first rest).stand <:+ first :: rest := by
  rw [readStatement]
  split
  · exact f.stand_readLet_suffix first rest
  · rw [Reading.stand_map]
    exact (f.stand_readValue_suffix rest).trans (List.suffix_cons first rest)
  · rw [Reading.stand_map]
    exact f.stand_readValue_suffix (first :: rest)

end Frame

/-! ### Giving up a statement -/

/-- The tokens from the next boundary on: behind the first semicolon, or from the first token
that starts a statement, whichever comes first. -/
def toBoundary : List Token → List Token
  | [] => []
  | t :: rest =>
    if t.kind.startsStatement then t :: rest
    else if t.kind = .punctuation .semicolon then rest
    else toBoundary rest

/-- Where reading goes on after a failure: behind the token on which it stood, if that is a
semicolon, and else from the next boundary behind it. -/
def resume : List Token → List Token
  | [] => []
  | t :: rest => if t.kind = .punctuation .semicolon then rest else toBoundary rest

theorem toBoundary_suffix (tokens : List Token) : toBoundary tokens <:+ tokens := by
  induction tokens with
  | nil => exact List.suffix_refl _
  | cons t rest ih =>
    rw [toBoundary]
    split
    · exact List.suffix_refl _
    · split
      · exact List.suffix_cons t rest
      · exact ih.trans (List.suffix_cons t rest)

/-- Going on leaves the token behind on which reading stood. -/
theorem resume_suffix_tail (tokens : List Token) : resume tokens <:+ tokens.tail := by
  cases tokens with
  | nil => exact List.suffix_refl _
  | cons t rest =>
    rw [resume]
    split
    · exact List.suffix_refl _
    · exact toBoundary_suffix rest

/-! ### Attempts -/

/-- An attempt at a statement: the tokens from its first one on, and what came of reading. -/
structure Attempt where
  start : List Token
  outcome : Reading Statement

namespace Attempt

/-- The statement that was read, if one was. -/
def statement? (a : Attempt) : Option Statement :=
  match a.outcome with
  | .ok p => some p.value
  | .error _ => none

/-- The error that was met, if one was. -/
def error? (a : Attempt) : Option ParseError :=
  match a.outcome with
  | .ok _ => none
  | .error e => some e.error

/-- The tokens that an attempt leaves to the next one. -/
def rest (a : Attempt) : List Token :=
  match a.outcome with
  | .ok p => p.rest
  | .error e => resume e.stand

/-- The attempt at the statement that starts with `first`. -/
def make (f : Frame) (first : Token) (rest : List Token) : Attempt :=
  ⟨first :: rest, f.readStatement first rest⟩

/-- An attempt leaves fewer tokens than it was given. -/
theorem length_rest_lt (f : Frame) (first : Token) (rest : List Token) :
    (make f first rest).rest.length < (first :: rest).length := by
  have inside := (f.stand_readStatement_suffix first rest).length_le
  unfold Attempt.rest make
  cases h : f.readStatement first rest with
  | ok p =>
    rw [h] at inside
    exact inside
  | error e =>
    rw [h] at inside
    have behind := (resume_suffix_tail e.stand).length_le
    simp only [Reading.stand_error, List.length_tail, List.length_cons] at inside behind ⊢
    omega

end Attempt

namespace Frame

variable (f : Frame)

/-- One attempt along the tokens of a program. -/
def stepAttempt : (tokens : List Token) →
    Option (Attempt × { rest : List Token // rest.length < tokens.length })
  | [] => none
  | first :: rest =>
    let attempt := Attempt.make f first rest
    some (attempt, ⟨attempt.rest, Attempt.length_rest_lt f first rest⟩)

/-- The attempts at the statements of a program, to the end of its tokens. -/
def attempts (tokens : List Token) : List Attempt :=
  gather List.length f.stepAttempt tokens

@[simp] theorem attempts_nil : f.attempts [] = [] := by
  rw [attempts, gather_eq]
  rfl

/-- The attempts at a program are that at its first statement, and those at what it leaves. -/
theorem attempts_cons (first : Token) (rest : List Token) :
    f.attempts (first :: rest) =
      .make f first rest :: f.attempts (Attempt.make f first rest).rest := by
  rw [attempts, gather_eq]
  rfl

end Frame

end MonkeyLang
