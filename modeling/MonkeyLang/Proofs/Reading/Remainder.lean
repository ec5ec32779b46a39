import MonkeyLang.Proofs.Lexing.Requests
import MonkeyLang.Proofs.Reading.Front

/-!
# Parsing from the middle of a text

A parser may be built over a lexer from which tokens were taken before. It then reads the program
of the text that is left, as if that were a text of its own, and its errors stand as far to the
right as the lexer had got (`readProgram_of_serveAll`).

Two facts are behind this. Whatever a lexer was asked for, its offset is the boundary of a character
and its text is what the source has from there on (`Lexer.At`), so the text that is left is one that
can be cut off. And the tokens of a text are no matter of where it stands (`Cursor.parse_shift`).
The mark of a finished iteration is not among what a parser reads: it takes its tokens outright, and
these come whether or not the mark is set (`Lexer.serveAll_replicate_token`).
-/

namespace MonkeyLang

namespace Cursor

/-- A place in a text is the start of the text from there on, moved to its offset. -/
theorem eq_shift_start (c : Cursor) :
    c = (Cursor.start (String.ofList c.rest)).shift c.offset := by
  rw [start, String.toList_ofList, shift, Nat.zero_add]

/-- Parsing from a place on is parsing the text from there on, with the errors moved. -/
theorem parse_eq_parse_rest (config : Config) (c : Cursor) :
    c.parse config =
      ⟨(MonkeyLang.parse config (String.ofList c.rest)).program,
        (MonkeyLang.parse config (String.ofList c.rest)).errors.map (ParseError.shift c.offset)⟩ :=
  calc c.parse config
    _ = ((start (String.ofList c.rest)).shift c.offset).parse config := by rw [← eq_shift_start]
    _ = _ := parse_shift config c.offset (start (String.ofList c.rest))

/-- In a source, the text of a place is what the source has from its offset to its end. -/
theorem StandsIn.reads_rest {c : Cursor} {source : String} (h : c.StandsIn source) :
    (⟨c.offset, source.utf8ByteSize⟩ : Span).Reads source (String.ofList c.rest) := by
  rw [← h.stop_eq]
  exact h.reads (List.append_nil c.rest).symm

end Cursor

/-- **Tokens that are taken outright** are those from the lexer's place on, the end of the input
last, whether or not an iteration has been finished. -/
theorem Lexer.serveAll_replicate_token (l : Lexer) :
    l.serveAll (List.replicate l.cursor.tokens.length .token) =
      (l.cursor.tokens.map .token, ⟨l.source, ⟨l.cursor.stop, []⟩, l.done⟩) := by
  obtain ⟨source, cursor, done⟩ := l
  show (⟨source, cursor, done⟩ : Lexer).serveAll (List.replicate cursor.tokens.length .token) =
    (cursor.tokens.map .token, ⟨source, ⟨cursor.stop, []⟩, done⟩)
  induction cursor using Cursor.pending_induction with
  | none_left c hc =>
    have last : (⟨source, c, done⟩ : Lexer).serve .token =
        (.token (Token.endAt c.stop), ⟨source, ⟨c.stop, []⟩, done⟩) := by
      simp only [serve, nextToken, Cursor.next, hc]
    rw [Cursor.tokens_of_next?_eq_none hc, List.length_singleton, List.replicate_one, serveAll,
      last]
    rfl
  | in_front c d t hc ih =>
    have front : (⟨source, c, done⟩ : Lexer).serve .token = (.token t, ⟨source, d, done⟩) := by
      simp only [serve, nextToken, Cursor.next, hc]
    rw [Cursor.tokens_of_next? hc, List.length_cons, List.replicate_succ, serveAll, front, ih,
      (Cursor.places_of_next? hc).2.2.2]
    rfl

/-- **Parsing from the middle is parsing the rest.** After any requests to a lexer, in any order, a
parser over that lexer reads the program of the text from the lexer's offset on, with the errors of
that text moved by the offset. What it reads are the tokens that the lexer gives outright, with the
mark of a finished iteration set or not. -/
theorem readProgram_of_serveAll (config : Config) (source : String)
    (requests : List Lexer.Request) :
    let l := ((Lexer.ofSource source).serveAll requests).2
    let parser := Parser.ofCursor config l.cursor
    (∃ rest : String, (⟨l.cursor.offset, source.utf8ByteSize⟩ : Span).Reads source rest ∧
      parser.readProgram.1 = (parse config rest).program ∧
      parser.readProgram.2.errors =
        (parse config rest).errors.map (ParseError.shift l.cursor.offset)) ∧
      ∀ done : Bool,
        ((⟨l.source, l.cursor, done⟩ : Lexer).serveAll
          (List.replicate (parser.pending.length + 1) .token)).1 =
            (parser.pending ++ [Token.endAt source.utf8ByteSize]).map .token := by
  intro l parser
  obtain ⟨⟨b, -, here⟩, -⟩ := (Lexer.at_ofSource source).serveAll requests
  have read : (⟨parser.readProgram.1, parser.readProgram.2.errors⟩ : ParseOutput) =
      l.cursor.parse config := rfl
  rw [Cursor.parse_eq_parse_rest] at read
  obtain ⟨program, errors⟩ := ParseOutput.mk.inj read
  refine ⟨⟨String.ofList l.cursor.rest, here.standsIn.reads_rest, program, errors⟩, fun done ↦ ?_⟩
  have tokens_eq : l.cursor.tokens = parser.pending ++ [Token.endAt source.utf8ByteSize] := by
    rw [Cursor.tokens, here.standsIn.stop_eq]
    rfl
  have outright := Lexer.serveAll_replicate_token ⟨l.source, l.cursor, done⟩
  rw [tokens_eq, List.length_append, List.length_singleton] at outright
  rw [outright]

end MonkeyLang
