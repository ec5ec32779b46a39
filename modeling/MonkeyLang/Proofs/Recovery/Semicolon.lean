import MonkeyLang.Proofs.Lexing.Cut
import MonkeyLang.Proofs.Reading.Front

/-!
# A semicolon separates

Whatever stands in front of a semicolon is over with it: a text that ends with one, well-formed or
not, and any text behind it are parsed as if each stood alone (`parse_append_of_semicolon`).

No lexeme runs on over a semicolon, so the tokens of the two texts are those of the first and then
those of the second. And no reader sees a token behind a semicolon. It ends every phrase, so the
attempts in front of it match those of the first text alone (`Splice.exists_exit`); and each of the
ways past that front, the reading of a statement that ends with the semicolon, the search for a
boundary, and a failure on the semicolon itself, leads right behind it.
-/

namespace MonkeyLang

/-- A statement that starts with a semicolon fails on it. -/
theorem Frame.readStatement_of_semicolon (f : Frame) {t : Token}
    (ht : t.kind = .punctuation .semicolon) (rest : List Token) :
    f.readStatement t rest =
      .error ⟨⟨if f.config.maxDepth = 0 then .nestingTooDeep 0
        else .noOperand (.punctuation .semicolon), t.span⟩, t :: rest⟩ := by
  have bare : f.readStatement t rest =
      (f.readValue (t :: rest)).map (.map .expressionStatement) := by
    rw [readStatement, ht]
  have closes : (f.facing (t :: rest)).kind.closes = true := congrArg TokenKind.closes ht
  rw [bare, readValue, Splice.readExpression_of_closes closes, tooDeep, noOperand, facing,
    Token.head_cons, ht]
  split
  · rename_i hd
    rw [hd]
    rfl
  · rfl

/-- Tokens up to a semicolon, alone and with others behind them. -/
def Splice.atSemicolon {f g : Frame} (hc : g.config = f.config) {t : Token}
    (ht : t.kind = .punctuation .semicolon) (rest : List Token) : Splice where
  place := id
  source := f
  sourceTail := [t]
  target := g
  targetTail := t :: rest
  config_eq := hc
  source_closes := congrArg TokenKind.closes ht
  target_closes := congrArg TokenKind.closes ht
  semicolon_iff := Iff.rfl

/-- Behind a semicolon on which reading stood, it goes on with what is behind. -/
theorem resume_of_semicolon {t : Token} (ht : t.kind = .punctuation .semicolon)
    (rest : List Token) : resume (t :: rest) = rest :=
  if_pos ht

/-- A semicolon is a boundary that is left behind. -/
theorem toBoundary_of_semicolon {t : Token} (ht : t.kind = .punctuation .semicolon)
    (rest : List Token) : toBoundary (t :: rest) = rest := by
  rw [toBoundary, ht, if_neg (by decide), if_pos rfl]

/-- The attempts at tokens that go on behind a semicolon match those at the tokens up to it, and
then are those at the tokens behind it. -/
theorem exists_attempts_of_semicolon {f g : Frame} (hc : g.config = f.config) {t : Token}
    (ht : t.kind = .punctuation .semicolon) (front rest : List Token) :
    ∃ as', List.Forall₂ (Splice.atSemicolon hc ht rest).Matches (f.attempts (front ++ [t])) as' ∧
      g.attempts (front ++ t :: rest) = as' ++ g.attempts rest := by
  let s : Splice := .atSemicolon hc ht rest
  obtain ⟨as, as', behind, behind', hm, exit, source, target⟩ := s.exists_exit front
  have after_eq : s.after front = front ++ t :: rest := Splice.after_of_place_eq_id rfl front
  rw [after_eq] at target
  have hs : f.attempts (front ++ [t]) = as ++ f.attempts behind := source
  have hs' : g.attempts (front ++ t :: rest) = as' ++ g.attempts behind' := target
  rw [hs, hs']
  -- Either the semicolon has been left behind, or it is the next token in both.
  have goes_on : behind = [] ∧ behind' = rest ∨ behind = [t] ∧ behind' = t :: rest := by
    cases exit with
    | past _ hp =>
      cases hp with
      | reached => exact .inr ⟨rfl, rfl⟩
      | closed hu hv => exact .inl ⟨(List.cons.inj hu).2.symm, (List.cons.inj hv).2.symm⟩
      | sought => exact .inl ⟨toBoundary_of_semicolon ht [], toBoundary_of_semicolon ht rest⟩
    | stood => exact .inl ⟨resume_of_semicolon ht [], resume_of_semicolon ht rest⟩
  rcases goes_on with ⟨rfl, rfl⟩ | ⟨rfl, rfl⟩
  · rw [Frame.attempts_nil, List.append_nil]
    exact ⟨as', hm, rfl⟩
  · have h := f.readStatement_of_semicolon ht []
    have h' := g.readStatement_of_semicolon ht rest
    rw [hc] at h'
    have alike : s.Matches (.make f t []) (.make g t rest) := by
      show s.Follows (f.readStatement t []) (g.readStatement t rest)
      rw [h, h']
      exact .inside (.error (fun _ ↦ rfl) [])
    have stops : (Attempt.make f t []).rest = [] :=
      (Attempt.rest_of_error h).trans (resume_of_semicolon ht [])
    have goes_on : (Attempt.make g t rest).rest = rest :=
      (Attempt.rest_of_error h').trans (resume_of_semicolon ht rest)
    rw [Frame.attempts_cons, Frame.attempts_cons, stops, goes_on, Frame.attempts_nil]
    exact ⟨as' ++ [.make g t rest], List.rel_append hm (.cons alike .nil),
      by rw [List.append_assoc, List.singleton_append]⟩

/-- The tokens of a text that ends with a semicolon end with a semicolon. -/
theorem Cursor.exists_pending_of_semicolon {c : Cursor} (h : c.rest.getLast? = some ';') :
    ∃ (front : List Token) (t : Token), c.pending = front ++ [t] ∧
      t.kind = .punctuation .semicolon := by
  obtain ⟨here, chars⟩ := c
  obtain ⟨text, rfl⟩ := List.getLast?_eq_some_iff.1 h
  have alone := pending_punctuation (⟨here, text⟩ : Cursor).stop .semicolon []
  rw [pending_nil] at alone
  refine ⟨_, _, (pending_append ⟨here, text⟩ ?_).trans (congrArg _ alone), rfl⟩
  exact apart_cons text rfl rfl (by decide) []

/-- **A semicolon isolates what is in front of it**: a text that ends with one and a text behind
it, whether or not either is well-formed, have the statements of the first text and then those of
the second, and likewise the errors, those of the second moved behind the first. -/
theorem parse_append_of_semicolon {a b : String} (h : a.toList.getLast? = some ';')
    (config : Config) :
    parse config (a ++ b) =
      ⟨⟨(parse config a).program.statements ++ (parse config b).program.statements⟩,
        (parse config a).errors ++
          (parse config b).errors.map (ParseError.shift a.utf8ByteSize)⟩ := by
  obtain ⟨front, t, pending_eq, ht⟩ := Cursor.exists_pending_of_semicolon (c := .start a) h
  let behind : Cursor := (Cursor.start b).shift a.utf8ByteSize
  have tokens_eq : (Cursor.start (a ++ b)).pending = front ++ t :: behind.pending := by
    have apart := apart_of_getLast? h rfl rfl (by decide) (by decide) b.toList
    rw [Cursor.pending_start_append apart, pending_eq, List.append_assoc, List.singleton_append]
  obtain ⟨as', hm, attempts⟩ := exists_attempts_of_semicolon (f := sourceFrame config a)
    (g := sourceFrame config (a ++ b)) rfl ht front behind.pending
  obtain ⟨statements, errors⟩ := sourceFrame_behind config a b
  rw [parse_eq, tokens_eq, Frame.statements_of_attempts attempts,
    Frame.errors_of_attempts attempts, Splice.statements_eq_of_matches hm,
    Splice.errors_eq_of_matches hm rfl, ← pending_eq, statements, errors]
  have same : ∀ es : List ParseError, es.map (ParseError.mapSpan id) = es := List.map_id
  exact congrArg (fun es ↦ (⟨⟨_⟩, es ++ _⟩ : ParseOutput)) (same _)

/-- A missing operand inside parentheses that are never closed in front of the semicolon, and behind
it a parenthesis that was never opened, a binding, and a character without a use. -/
theorem parse_append_of_semicolon_unclosed :
    "a (5 + ;".toList.getLast? = some ';' ∧
      parse ⟨8⟩ ("a (5 + ;" ++ ") let x = (y); #") =
        ⟨⟨[.expressionStatement (.identifier "a"), .letStatement "x" (.identifier "y")]⟩,
          [⟨.noOperand (.punctuation .semicolon), ⟨7, 8⟩⟩,
            ⟨.noOperand (.punctuation .rparen), ⟨8, 9⟩⟩, ⟨.illegalCharacter "#", ⟨23, 24⟩⟩]⟩ := by
  have ends : "a (5 + ;".toList.getLast? = some ';' := by decide
  refine ⟨ends, (parse_append_of_semicolon ends ⟨8⟩).trans ?_⟩
  decide +kernel

end MonkeyLang
