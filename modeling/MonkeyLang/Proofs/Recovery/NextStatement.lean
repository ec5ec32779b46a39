import MonkeyLang.Proofs.Diagnostic.Citation
import MonkeyLang.Proofs.Reading.Front

/-!
# A statement on the next line

A text may break off in the middle of a statement, with a binding or a return on the next line.
The statements and the errors of that next text are then kept exactly if no error of the first
text alone cites its end, unless it says which token is due there
(`parse_append_newline_iff`).

What makes the difference is where reading stands when it fails. If it stands in the first text,
recovery finds the word that starts the next statement in front of it. But a reader that looks for
an operand behind the last token of the first text stands on that word already. Recovery only
looks for a boundary behind the token on which reading stood, so it passes the word, and with it
the statement (`parse_return_newline_let`).
-/

namespace MonkeyLang

/-! ### Failures at the end of the tokens -/

namespace Frame

variable {f : Frame} {tokens : List Token}

/-- Some attempt fails with no token left to stand on. -/
def FailsAtEnd (f : Frame) (tokens : List Token) : Prop :=
  ∃ a ∈ f.attempts tokens, ∃ e, a.outcome = .error ⟨e, []⟩

/-- **An attempt fails at the end of the tokens** exactly if an error cites the end and does not
say which token is due there. -/
theorem failsAtEnd_iff (hp : ∀ t ∈ tokens, t.span.start < f.stop) :
    f.FailsAtEnd tokens ↔
      ∃ e ∈ f.errors tokens, e.span.start = f.stop ∧
        ∀ expected found, e.cause ≠ .unexpectedToken expected found := by
  constructor
  · rintro ⟨a, ha, e, he⟩
    obtain ⟨first, more, -, rfl⟩ := f.exists_make_of_mem_attempts ha
    obtain ⟨cited, hc, -⟩ := f.exists_cites_of_readStatement he
    have member : e ∈ f.errors tokens :=
      List.mem_filterMap.2 ⟨_, ha, Attempt.error?_of_error he⟩
    cases hc with
    | here h hu => exact ⟨e, member, congrArg Span.start h.span_eq, hu⟩
  · rintro ⟨e, he, at_end, hu⟩
    obtain ⟨a, ha, hae⟩ := List.mem_filterMap.1 he
    obtain ⟨first, more, inside, rfl⟩ := f.exists_make_of_mem_attempts ha
    rcases hread : f.readStatement first more with ⟨e', stand⟩ | p
    · rw [Attempt.error?_of_error hread] at hae
      obtain rfl : e' = e := Option.some.inj hae
      obtain ⟨cited, hc, within⟩ := f.exists_cites_of_readStatement hread
      -- A token that is cited would begin before the end.
      obtain rfl : cited = [] := by
        rcases cited with - | ⟨t, ts⟩
        · rfl
        have before_end := hp t
          (inside.subset ((citable_suffix _).subset (within.subset List.mem_cons_self)))
        have cites_first : e'.span = t.span := hc.cites_facing.span_eq
        rw [← cites_first, at_end] at before_end
        exact absurd before_end (Nat.lt_irrefl _)
      cases hc with
      | here h _ => exact ⟨_, ha, e', hread⟩
      | next h hl due =>
        obtain ⟨expected, found, hcause⟩ := due rfl
        exact absurd hcause (hu expected found)
    · rw [Attempt.error?_of_ok hread] at hae
      cases hae

end Frame

/-! ### A statement behind a text -/

/-- The words that start a statement end every phrase. -/
theorem TokenKind.closes_of_startsStatement {k : TokenKind} (h : k.startsStatement = true) :
    k.closes = true := by
  rcases startsStatement_iff.1 h with rfl | rfl <;> rfl

theorem TokenKind.ne_semicolon {k : TokenKind} (h : k.startsStatement = true) :
    k ≠ .punctuation .semicolon := by
  rintro rfl
  cases h

/-- Tokens alone, and with a statement behind them that its first word starts. -/
def Splice.beforeStatement {f g : Frame} (hc : g.config = f.config) {t : Token}
    (ht : t.kind.startsStatement = true) (rest : List Token) : Splice where
  place := id
  source := f
  sourceTail := []
  target := g
  targetTail := t :: rest
  config_eq := hc
  source_closes := f.closes_facing_nil
  target_closes := TokenKind.closes_of_startsStatement ht
  semicolon_iff := iff_of_false TokenKind.noConfusion (TokenKind.ne_semicolon ht)

/-- **The attempts at tokens with a statement behind them** match those at the tokens alone. If
none of these fails at the end, they go on with that statement; otherwise with what the next
boundary behind its first word leaves. -/
theorem exists_attempts_of_startsStatement {f g : Frame} (hc : g.config = f.config) {t : Token}
    (ht : t.kind.startsStatement = true) (front rest : List Token) :
    ∃ as' goes_on, List.Forall₂ (Splice.beforeStatement hc ht rest).Matches (f.attempts front) as' ∧
      g.attempts (front ++ t :: rest) = as' ++ g.attempts goes_on ∧
      (¬ f.FailsAtEnd front ∧ goes_on = t :: rest ∨
        f.FailsAtEnd front ∧ goes_on = toBoundary rest) := by
  let s : Splice := .beforeStatement hc ht rest
  obtain ⟨as, as', behind, behind', hm, exit, source, target⟩ := s.exists_exit front
  have before_eq : s.before front = front := List.append_nil front
  have after_eq : s.after front = front ++ t :: rest := Splice.after_of_place_eq_id rfl front
  rw [before_eq] at source
  rw [after_eq] at target
  have none_behind : toBoundary s.sourceTail = [] := rfl
  have found : toBoundary s.targetTail = t :: rest := if_pos ht
  -- Alone, the tokens are used up with the attempts that match.
  obtain ⟨rfl, goes_on⟩ : behind = [] ∧
      ((∀ a ∈ as, ¬ s.StandsBehind a) ∧ behind' = t :: rest ∨
        (∃ a ∈ as, s.StandsBehind a) ∧ behind' = toBoundary rest) := by
    cases exit with
    | past h hp =>
      cases hp with
      | reached => exact ⟨rfl, .inl ⟨h, rfl⟩⟩
      | closed hu _ => cases hu
      | sought => exact ⟨none_behind, .inl ⟨h, found⟩⟩
    | stood as h =>
      have passed : resume s.targetTail = toBoundary rest := if_neg (TokenKind.ne_semicolon ht)
      exact ⟨rfl, .inr ⟨⟨_, List.mem_append_right _ (List.mem_singleton_self _), h⟩, passed⟩⟩
  have alone : f.attempts front = as := by
    rw [Frame.attempts_nil, List.append_nil] at source
    exact source
  rw [← alone] at hm goes_on
  refine ⟨as', behind', hm, target, goes_on.imp_left fun h ↦ ⟨?_, h.2⟩⟩
  rintro ⟨a, ha, stands⟩
  exact h.1 a ha stands

/-! ### Texts on lines of their own -/

/-- Parsing a text fails at its end exactly if an error cites the end and does not say which token
is due there. -/
theorem sourceFrame_failsAtEnd_iff (config : Config) (source : String) :
    (sourceFrame config source).FailsAtEnd (Cursor.start source).pending ↔
      ∃ e ∈ (parse config source).errors, e.span.start = source.utf8ByteSize ∧
        ∀ expected found, e.cause ≠ .unexpectedToken expected found := by
  rw [← Cursor.stop_start]
  exact Frame.failsAtEnd_iff fun t ht ↦ (Cursor.places_of_mem_pending ht).2

/-- A return with nothing behind it fails at the end. -/
theorem Frame.exists_readStatement_of_return (f : Frame) {t : Token}
    (ht : t.kind = .keyword .returnWord) : ∃ e, f.readStatement t [] = .error ⟨e, []⟩ := by
  have alone : f.readStatement t [] = (f.readValue []).map (.map .returnStatement) := by
    rw [readStatement, ht]
  rw [alone, readValue, Splice.readExpression_of_closes rfl]
  split <;> exact ⟨_, rfl⟩

theorem Cursor.pending_return :
    (start "return").pending = [⟨.keyword .returnWord, "return", ⟨0, 6⟩⟩] := by
  decide +kernel

theorem failsAtEnd_return (config : Config) :
    (sourceFrame config "return").FailsAtEnd (Cursor.start "return").pending := by
  obtain ⟨e, he⟩ := (sourceFrame config "return").exists_readStatement_of_return
    (t := ⟨.keyword .returnWord, "return", ⟨0, 6⟩⟩) rfl
  rw [Cursor.pending_return, Frame.FailsAtEnd, Frame.attempts_cons]
  exact ⟨_, List.mem_cons_self, e, he⟩

/-- A text whose first token starts a statement has that token in front. -/
theorem Cursor.exists_pending_of_head? {source : String}
    (h : ∃ t ∈ (tokenize source).head?, t.kind.startsStatement = true) :
    ∃ t more, (start source).pending = t :: more ∧ t.kind.startsStatement = true := by
  obtain ⟨t, ht, hs⟩ := h
  have inner : t.kind ≠ .endOfInput := fun hk ↦ by
    rw [hk] at hs
    cases hs
  obtain ⟨more, pending_eq⟩ := exists_pending_of_mem_head? ht inner
  exact ⟨t, more, pending_eq, hs⟩

/-- A statement on the next line is kept, if the text in front of it does not fail at its end. -/
theorem parse_suffix_of_not_failsAtEnd {config : Config} {a b : String}
    (ha : ¬ (sourceFrame config a).FailsAtEnd (Cursor.start a).pending)
    (hb : ∃ t ∈ (tokenize b).head?, t.kind.startsStatement = true) :
    (parse config b).program.statements <:+
        (parse config (a ++ "\n" ++ b)).program.statements ∧
      (parse config b).errors.map (ParseError.shift (a.utf8ByteSize + 1)) <:+
        (parse config (a ++ "\n" ++ b)).errors := by
  obtain ⟨t, more, pending_eq, ht⟩ := Cursor.exists_pending_of_head? hb
  let n : Nat := (a ++ "\n").utf8ByteSize
  have behind_eq : ((Cursor.start b).shift n).pending = t.shift n :: more.map (Token.shift n) := by
    rw [Cursor.pending_shift, pending_eq, List.map_cons]
  obtain ⟨statements, errors⟩ := sourceFrame_behind config (a ++ "\n") b
  obtain ⟨as', goes_on, -, attempts, ⟨-, rfl⟩ | ⟨fails, -⟩⟩ :=
    exists_attempts_of_startsStatement (f := sourceFrame config a)
      (g := sourceFrame config (a ++ "\n" ++ b)) rfl (t := t.shift n) ht (Cursor.start a).pending
      (more.map (Token.shift n))
  · rw [← behind_eq, ← Cursor.pending_start_newline] at attempts
    rw [parse_eq config (a ++ "\n" ++ b), Frame.statements_of_attempts attempts,
      Frame.errors_of_attempts attempts, statements, errors, utf8ByteSize_append_newline]
    exact ⟨List.suffix_append _ _, List.suffix_append _ _⟩
  · exact absurd fails ha

/-- A return without a value on the next line loses its error, if the text in front of it fails at
its end: what is read behind that text stops in front of the end. -/
theorem not_errors_suffix_of_failsAtEnd {config : Config} {a : String}
    (ha : (sourceFrame config a).FailsAtEnd (Cursor.start a).pending) :
    ¬ (parse config "return").errors.map (ParseError.shift (a.utf8ByteSize + 1)) <:+
      (parse config (a ++ "\n" ++ "return")).errors := by
  intro kept
  obtain ⟨e, he, at_end, hu⟩ :=
    (sourceFrame_failsAtEnd_iff config "return").1 (failsAtEnd_return config)
  have stop_eq : (a ++ "\n" ++ "return").utf8ByteSize =
      "return".utf8ByteSize + (a.utf8ByteSize + 1) := by
    rw [String.utf8ByteSize_append, utf8ByteSize_append_newline, Nat.add_comm]
  -- The error of the return would be one at the end of both texts together.
  obtain ⟨a', ha', e', he'⟩ := (sourceFrame_failsAtEnd_iff config (a ++ "\n" ++ "return")).2
    ⟨e.shift (a.utf8ByteSize + 1), kept.subset (List.mem_map_of_mem he),
      by rw [stop_eq, ← at_end]; rfl, hu⟩
  let t : Token := .shift (a ++ "\n").utf8ByteSize ⟨.keyword .returnWord, "return", ⟨0, 6⟩⟩
  have behind_eq : ((Cursor.start "return").shift (a ++ "\n").utf8ByteSize).pending = [t] := by
    rw [Cursor.pending_shift, Cursor.pending_return, List.map_singleton]
  obtain ⟨as', goes_on, hm, attempts, ⟨stays, -⟩ | ⟨-, rfl⟩⟩ :=
    exists_attempts_of_startsStatement (f := sourceFrame config a)
      (g := sourceFrame config (a ++ "\n" ++ "return")) rfl (t := t) rfl
      (Cursor.start a).pending []
  · exact stays ha
  · rw [← behind_eq, ← Cursor.pending_start_newline, toBoundary, Frame.attempts_nil,
      List.append_nil] at attempts
    rw [attempts] at ha'
    obtain ⟨front, stand_eq⟩ := Splice.exists_stand_eq_of_matches hm ha' he'
    exact absurd stand_eq.symm (List.append_ne_nil_of_right_ne_nil _ (List.cons_ne_nil _ _))

/-- **A statement on the next line is kept**, with all that follows it and with its errors, exactly
if no error of the text in front of it cites the end of that text, unless it says which token is
due there. -/
theorem parse_append_newline_iff (config : Config) (a : String) :
    (∀ b : String, (∃ t ∈ (tokenize b).head?, t.kind.startsStatement = true) →
      (parse config b).program.statements <:+
          (parse config (a ++ "\n" ++ b)).program.statements ∧
        (parse config b).errors.map (ParseError.shift (a.utf8ByteSize + 1)) <:+
          (parse config (a ++ "\n" ++ b)).errors) ↔
      ∀ e ∈ (parse config a).errors, e.span.start = a.utf8ByteSize →
        ∃ expected found, e.cause = .unexpectedToken expected found := by
  have fails_iff := sourceFrame_failsAtEnd_iff config a
  constructor
  · intro kept e he at_end
    by_contra hu
    have starts : ∃ t ∈ (tokenize "return").head?, t.kind.startsStatement = true := by
      rw [tokenize, Cursor.tokens, Cursor.pending_return]
      exact ⟨_, rfl, rfl⟩
    simp only [not_exists] at hu
    exact not_errors_suffix_of_failsAtEnd (fails_iff.2 ⟨e, he, at_end, hu⟩)
      (kept "return" starts).2
  · intro due b hb
    refine parse_suffix_of_not_failsAtEnd (fun fails ↦ ?_) hb
    obtain ⟨e, he, at_end, hu⟩ := fails_iff.1 fails
    obtain ⟨expected, found, hcause⟩ := due e he at_end
    exact hu expected found hcause

/-- A return that breaks off takes the binding on the next line with it. -/
theorem parse_return_newline_let :
    parse ⟨256⟩ ("return" ++ "\n" ++ "let x = 5;") =
        ⟨⟨[]⟩, [⟨.noOperand (.keyword .letWord), ⟨7, 10⟩⟩]⟩ ∧
      (∃ t ∈ (tokenize "let x = 5;").head?, t.kind.startsStatement = true) ∧
      parse ⟨256⟩ "let x = 5;" = ⟨⟨[.letStatement "x" (.integer 5 "5")]⟩, []⟩ := by
  have first : (tokenize "let x = 5;").head? = some ⟨.keyword .letWord, "let", ⟨0, 3⟩⟩ := by
    decide +kernel
  exact ⟨by decide +kernel, ⟨_, first, rfl⟩, by decide +kernel⟩

end MonkeyLang
