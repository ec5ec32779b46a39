import MonkeyLang.Gather
import MonkeyLang.Text.Utf8
import MonkeyLang.Token.Basic
import MonkeyLang.Token.Lexeme

/-!
# A place in a source text

A cursor is a byte offset with the characters from there on. Taking a token passes the blanks
in front of it and then its lexeme. Behind the last lexeme stands the end of the input, which
may be taken any number of times. The tokens of a text are those that a cursor at its start
takes, with the end of the input once at the end.
-/

namespace MonkeyLang

/-- A place in a source text. -/
structure Cursor where
  offset : Nat
  rest : List Char
  deriving DecidableEq

namespace Cursor

/-- The start of a source text. -/
def start (source : String) : Cursor := ⟨0, source.toList⟩

/-- The offset at which the text ends. -/
def stop (c : Cursor) : Nat := c.offset + byteLength c.rest

/-- The place behind the blanks. -/
def skipBlanks (c : Cursor) : Cursor :=
  ⟨c.offset + byteLength (c.rest.takeWhile isBlank), c.rest.dropWhile isBlank⟩

/-- The next token other than the end of the input, if there is one, and the place behind it. -/
def next? (c : Cursor) : Option (Token × Cursor) :=
  match c.skipBlanks with
  | ⟨_, []⟩ => none
  | ⟨here, ch :: cs⟩ =>
    let lexeme := Lexeme.first ch cs
    let beyond := here + byteLength lexeme.text
    some (⟨lexeme.kind, String.ofList lexeme.text, ⟨here, beyond⟩⟩, ⟨beyond, lexeme.rest⟩)

/-- A token leaves less text behind it. -/
theorem length_rest_next? {c d : Cursor} {t : Token} (h : c.next? = some (t, d)) :
    d.rest.length < c.rest.length := by
  have skipped : c.skipBlanks.rest.length ≤ c.rest.length :=
    (List.dropWhile_suffix isBlank).length_le
  unfold next? at h
  split at h
  · simp at h
  · rename_i here ch cs hc
    simp only [Option.some.injEq, Prod.mk.injEq] at h
    obtain ⟨_, rfl⟩ := h
    rw [hc] at skipped
    exact Nat.lt_of_lt_of_le (Lexeme.length_rest_lt ch cs) skipped

/-- The next token, the end of the input where there is no other, and the place behind it. -/
def next (c : Cursor) : Token × Cursor :=
  match c.next? with
  | some taken => taken
  | none => (Token.endAt c.stop, ⟨c.stop, []⟩)

/-- One step along the tokens of a text. -/
def step (c : Cursor) : Option (Token × { d : Cursor // d.rest.length < c.rest.length }) :=
  match h : c.next? with
  | some (t, d) => some (t, ⟨d, length_rest_next? h⟩)
  | none => none

theorem step_of_some {c d : Cursor} {t : Token} (h : c.next? = some (t, d)) :
    c.step = some (t, ⟨d, length_rest_next? h⟩) := by
  rw [step]
  split
  · rename_i taken
    obtain ⟨rfl, rfl⟩ := Prod.mk.inj (Option.some.inj (taken.symm.trans h))
    rfl
  · rename_i taken
    simp [taken] at h

theorem step_of_none {c : Cursor} (h : c.next? = none) : c.step = none := by
  rw [step]
  split <;> simp_all

/-- The tokens from a place on, without the end of the input. -/
def pending (c : Cursor) : List Token :=
  gather (fun c : Cursor ↦ c.rest.length) step c

/-- The tokens from a place on are the next one, if there is one, and those behind it. -/
theorem pending_eq (c : Cursor) :
    c.pending =
      match c.next? with
      | some (t, d) => t :: d.pending
      | none => [] := by
  rw [pending, gather_eq]
  cases h : c.next? with
  | none => rw [step_of_none h]
  | some taken => rw [step_of_some h]; rfl

/-- The tokens from a place on, with the end of the input once at the end. -/
def tokens (c : Cursor) : List Token := c.pending ++ [Token.endAt c.stop]

end Cursor

/-- All tokens of a source text, with the end of the input once at the end. -/
def tokenize (source : String) : List Token := (Cursor.start source).tokens

/-- The tokens of a text without the end of the input are those that its start has in front. -/
theorem dropLast_tokenize (source : String) :
    (tokenize source).dropLast = (Cursor.start source).pending := by
  rw [tokenize, Cursor.tokens, List.dropLast_concat]

end MonkeyLang
