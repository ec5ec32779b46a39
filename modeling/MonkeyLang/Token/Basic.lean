import MonkeyLang.Text.Position
import MonkeyLang.Text.Span
import MonkeyLang.Token.Kind

/-!
# Tokens

A token is a kind, the text that it was read from, and the place of that text. The end of the
input is a token too, with an empty text at the last offset; it stands behind every list of
tokens, however far one reads.
-/

namespace MonkeyLang

/-- A piece of source text with its kind and its place. -/
structure Token where
  kind : TokenKind
  text : String
  span : Span
  deriving DecidableEq

namespace Token

/-- The token that stands at the end of a source of `stop` bytes. -/
def endAt (stop : Nat) : Token := ⟨.endOfInput, "", ⟨stop, stop⟩⟩

/-- The first of the tokens, or the end of a source of `stop` bytes where there is none. -/
def head (stop : Nat) (tokens : List Token) : Token := tokens.headD (endAt stop)

/-- A token in one line: its tag and its quoted text. -/
def render (t : Token) : String :=
  (Dump.record "Token" [("kind", .atom t.kind.tag), ("literal", .text t.text)]).inline

/-- The structure of a token. -/
def dump (t : Token) : Dump :=
  .record "Token" [("kind", t.kind.dump), ("literal", .text t.text), ("span", t.span.dump)]

/-- A token in one line behind its position in the source. -/
def renderIn (source : String) (t : Token) : String :=
  (Position.ofOffset source t.span.start).render ++ "\t" ++ t.render

@[simp] theorem head_nil (stop : Nat) : head stop [] = endAt stop := rfl

@[simp] theorem head_cons (stop : Nat) (t : Token) (ts : List Token) :
    head stop (t :: ts) = t := rfl

end Token

end MonkeyLang
