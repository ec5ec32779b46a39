import MonkeyLang.Diagnostic.ParseError
import MonkeyLang.Token.Basic

/-!
# Reading phrases off a list of tokens

A reader takes a phrase off the front of a list of tokens. If it succeeds it gives the phrase's
value, the last token of the phrase, and the tokens behind it. If it fails it gives the error
and the tokens from the one on which it stood, because recovery starts from there. The end of
the input is not in the lists: an empty list stands at it, and the frame knows its offset.
-/

namespace MonkeyLang

/-- The limit on nesting that a parse obeys when nothing else is asked for. -/
def defaultMaxDepth : Nat := 256

/-- The settings of a parse. -/
structure Config where
  /-- How many levels of expression may stand inside each other. -/
  maxDepth : Nat := defaultMaxDepth
  deriving DecidableEq

/-- The settings, as a dump shows them. -/
def Config.dump (config : Config) : Dump :=
  .record "ParserConfig" [("max_depth", .nat config.maxDepth)]

/-- What stays fixed while one text is read: the settings, and the offset of its end. -/
structure Frame where
  config : Config
  stop : Nat
  deriving DecidableEq

/-- A phrase that was read, with its last token and the tokens behind it. -/
structure Parsed (α : Type) where
  value : α
  last : Token
  rest : List Token

/-- An error, with the tokens from the one on which the reader stood. -/
structure Failure where
  error : ParseError
  stand : List Token

/-- What comes of reading a phrase. -/
abbrev Reading (α : Type) := Except Failure (Parsed α)

namespace Parsed

variable {α β : Type}

/-- The same phrase, with another value made of its own. -/
def map (g : α → β) (p : Parsed α) : Parsed β := ⟨g p.value, p.last, p.rest⟩

/-- The tokens from the last one of the phrase on. -/
def stand (p : Parsed α) : List Token := p.last :: p.rest

/-- The phrase with the semicolon behind it, if there is one. -/
def withSemicolon (p : Parsed α) : Parsed α :=
  match p.rest with
  | t :: rest => if t.kind = .punctuation .semicolon then ⟨p.value, t, rest⟩ else p
  | [] => p

end Parsed

namespace Frame

variable (f : Frame)

/-- The token that a reader faces: the first one, or the end of the input. -/
def facing (tokens : List Token) : Token := Token.head f.stop tokens

/-- Reading fails on the nesting limit at the token faced in `cited`, standing at `stand`. -/
def tooDeep (cited stand : List Token) : Failure :=
  ⟨⟨.nestingTooDeep f.config.maxDepth, (f.facing cited).span⟩, stand⟩

/-- Reading fails because no expression starts at the token faced. -/
def noOperand (tokens : List Token) : Failure :=
  let t := f.facing tokens
  let cause : ParseError.Cause :=
    match t.kind with
    | .illegal => .illegalCharacter t.text
    | kind => .noOperand kind
  ⟨⟨cause, t.span⟩, tokens⟩

/-- A token of the kind due behind `last`. Where another kind stands, reading fails on `last`. -/
def expect (kind : TokenKind) (last : Token) (rest : List Token) : Reading Token :=
  let found := f.facing rest
  if found.kind = kind then .ok ⟨found, found, rest.tail⟩
  else .error ⟨⟨.unexpectedToken kind found.kind, found.span⟩, last :: rest⟩

end Frame

/-! ### Readers stay inside the tokens that they were given -/

/-- Where a reader stands in the end, on the last token of its phrase or on the token on which
it failed, with the tokens behind that one. -/
def Reading.stand {α : Type} : Reading α → List Token
  | .ok p => p.stand
  | .error e => e.stand

@[simp] theorem Reading.stand_ok {α : Type} (p : Parsed α) :
    Reading.stand (.ok p : Reading α) = p.stand := rfl

@[simp] theorem Reading.stand_error {α : Type} (e : Failure) :
    Reading.stand (.error e : Reading α) = e.stand := rfl

@[simp] theorem Reading.stand_map {α β : Type} (g : α → β) (r : Reading α) :
    Reading.stand (r.map (Parsed.map g)) = r.stand := by
  cases r <;> rfl

/-- A semicolon behind a phrase is taken from the tokens behind it. -/
theorem Parsed.stand_withSemicolon_suffix {α : Type} (p : Parsed α) :
    p.withSemicolon.stand <:+ p.stand := by
  obtain ⟨value, last, rest⟩ := p
  cases rest with
  | nil => exact List.suffix_refl _
  | cons t rest =>
    rw [Parsed.withSemicolon]
    split
    · rename_i u us h
      obtain ⟨rfl, rfl⟩ := List.cons.inj h
      split
      · exact List.suffix_cons last _
      · exact List.suffix_refl _
    · exact List.suffix_refl _

/-- What is expected is found in the tokens behind, or else reading stays on `last`. The kinds
that are expected are never the end of the input, which is in no list. -/
theorem Frame.stand_expect_suffix (f : Frame) (kind : TokenKind) (hk : kind ≠ .endOfInput)
    (last : Token) (rest : List Token) :
    (f.expect kind last rest).stand <:+ last :: rest := by
  rw [Frame.expect]
  cases rest with
  | nil =>
    have : (f.facing []).kind ≠ kind := fun h ↦ hk h.symm
    simp only [this, if_false]
    exact List.suffix_refl _
  | cons t rest =>
    by_cases h : (f.facing (t :: rest)).kind = kind
    · simp only [h, if_true]
      exact List.suffix_cons last _
    · simp only [h, if_false]
      exact List.suffix_refl _

end MonkeyLang
