import MonkeyLang.Proofs.Reading.Program
import MonkeyLang.Proofs.Window.Readers

/-!
# Two tokens in sight are enough

A window over a lexer reads what the list of the tokens to come reads. The window shows that list
(`Window.Shows`): its current token is the first one, its upcoming token the second one, and the
others are those that the lexer has still to give, with the end of the input wherever the list has
no token. A step takes the first token off, so the readers over a window and the readers of a list
stay together (`Walk.Gives`): both succeed with one value, or both fail with one error, and the
window is left showing the tokens from the one on which the reader of the list stands.

Recovery stays together as well, though it looks at the upcoming token where the reader of a list
looks at the first one (`Window.Shows.synchronize`). With the induction along the statements a
program read over a window is the program of its tokens (`Window.Shows.readProgram`), so parsing
with two tokens in sight is parsing (`Window.parse_ofSource`), from any place of a lexer
(`Window.parse_eq`). What is left behind shows no token, and reading on finds none.
-/

namespace MonkeyLang

/-- A window shows some tokens before the end of the input at the offset `stop`. -/
structure Window.Shows (w : Window) (stop : Nat) (tokens : List Token) : Prop where
  current_eq : w.current = Token.head stop tokens
  upcoming_eq : w.upcoming = Token.head stop tokens.tail
  /-- The lexer has still to give the tokens behind those in sight. -/
  pending_eq : w.lexer.cursor.pending = tokens.tail.tail
  stop_eq : w.lexer.cursor.stop = stop
  /-- None of the tokens is the end of the input. -/
  inner : ∀ t ∈ tokens, t.kind ≠ .endOfInput

namespace Window.Shows

variable {w : Window} {stop : Nat} {tokens : List Token}

/-- With one token further on, a window shows the tokens behind the first one. -/
theorem advance (h : w.Shows stop tokens) : w.advance.Shows stop tokens.tail := by
  obtain ⟨pulled, others, stays⟩ := w.lexer.cursor.next_eq
  refine ⟨h.upcoming_eq, ?_, ?_, stays.trans h.stop_eq,
    fun t ht ↦ h.inner t (List.mem_of_mem_tail ht)⟩
  · rw [← h.pending_eq, ← h.stop_eq]
    exact pulled
  · rw [← h.pending_eq]
    exact others

/-- A window over a lexer shows the tokens that the lexer has still to give. -/
theorem ofLexer (l : Lexer) : (Window.ofLexer l).Shows l.cursor.stop l.cursor.pending := by
  obtain ⟨first, behind_first, stays⟩ := l.cursor.next_eq
  obtain ⟨second, behind_second, stays'⟩ := l.cursor.next.2.next_eq
  rw [behind_first, stays] at second
  rw [behind_first] at behind_second
  exact ⟨first, second, behind_second, stays'.trans stays,
    fun t ht ↦ Cursor.kind_ne_of_mem_pending ht⟩

/-- The end of the input is the current token exactly if no token is left. -/
theorem current_kind_eq_iff (h : w.Shows stop tokens) :
    w.current.kind = .endOfInput ↔ tokens = [] := by
  rw [h.current_eq]
  rcases tokens with - | ⟨t, rest⟩
  · exact iff_of_true rfl rfl
  · exact iff_of_false (h.inner t List.mem_cons_self) (List.cons_ne_nil t rest)

end Window.Shows

namespace Walk

/-! ### Readers of a window and readers of a list -/

section Gives

variable {α β : Type} {stop : Nat} {w : Window}

/-- What came of reading a window is what came of reading a list: the same value or the same error,
with a window that shows the tokens on which the reader of the list stands. -/
def Gives (stop : Nat) (r : Reading α) (o : EStateM.Result ParseError Window α) : Prop :=
  (∃ p w, r = .ok p ∧ o = .ok p.value w ∧ w.Shows stop p.stand) ∨
    ∃ e w, r = .error e ∧ o = .error e.error w ∧ w.Shows stop e.stand

theorem Gives.ok {p : Parsed α} (h : w.Shows stop p.stand) :
    Gives stop (.ok p) (.ok p.value w) :=
  .inl ⟨p, w, rfl, rfl, h⟩

theorem Gives.error {e : Failure} (h : w.Shows stop e.stand) :
    Gives stop (.error e : Reading α) (.error e.error w) :=
  .inr ⟨e, w, rfl, rfl, h⟩

/-- A value may be made of the one that was read. -/
theorem Gives.map {r : Reading α} {x : Walk α} (h : Gives stop r (x w)) (g : α → β) :
    Gives stop (r.map (.map g)) ((x >>= fun a ↦ pure (g a)) w) := by
  rcases h with ⟨p, w', rfl, ho, there⟩ | ⟨e, w', rfl, ho, there⟩
  · rw [bind_of_ok ho]
    exact .ok there
  · rw [bind_of_error ho]
    exact .error there

end Gives

variable {f : Frame} {w : Window} {tokens : List Token}

/-- A token of the kind due is found upcoming where it is found behind the last one. The end of the
input is never due, so what was found is one of the tokens. -/
theorem gives_expect (kind : TokenKind) (hk : kind ≠ .endOfInput) {last : Token}
    {rest : List Token} (h : w.Shows f.stop (last :: rest)) :
    Gives f.stop (f.expect kind last rest) (expect kind w) := by
  have found : w.upcoming = f.facing rest := h.upcoming_eq
  rw [Frame.expect, expect, get_bind, found]
  by_cases due : (f.facing rest).kind = kind
  · rw [if_pos due, if_pos due, step_bind]
    rcases rest with - | ⟨t, behind⟩
    · exact absurd due.symm hk
    · exact .ok h.advance
  · rw [if_neg due, if_neg due]
    exact .error h

/-- No expression starts with the current token where none starts with the first one. -/
theorem gives_noOperand (h : w.Shows f.stop tokens) :
    Gives f.stop (.error (f.noOperand tokens)) (noOperand w) := by
  have faced : w.current = f.facing tokens := h.current_eq
  have same : noOperand w = .error (f.noOperand tokens).error w := by
    rw [noOperand, get_bind, Frame.noOperand, faced]
    dsimp only
    cases (f.facing tokens).kind <;> rfl
  rw [same]
  exact .error h

/-- An integer is read, or is too large. -/
theorem gives_readInteger {t : Token} {rest : List Token} (h : w.Shows f.stop (t :: rest)) :
    Gives f.stop (Frame.readInteger t rest) (readInteger w) := by
  have first : w.current = t := h.current_eq
  rw [Frame.readInteger, readInteger, get_bind, first]
  by_cases small : decimalValue t.text.toList ≤ maxInteger
  · rw [if_pos small, if_pos small]
    exact .ok h
  · rw [if_neg small, if_neg small]
    exact .error h

/-! ### Expressions -/

/-- Readers of the expressions inside an operand stay together. -/
def Agree (f : Frame) (inner : Precedence → List Token → Reading Expr)
    (inner' : Precedence → Walk Expr) : Prop :=
  ∀ (floor : Precedence) {tokens : List Token} {w : Window}, w.Shows f.stop tokens →
    Gives f.stop (inner floor tokens) (inner' floor w)

/-- An operand is read by its first token. -/
theorem gives_readOperand {inner : Precedence → List Token → Reading Expr}
    {inner' : Precedence → Walk Expr} (hi : Agree f inner inner') (h : w.Shows f.stop tokens) :
    Gives f.stop (f.readOperand inner tokens) (readOperand inner' w) := by
  rcases tokens with - | ⟨t, rest⟩
  · have ended : w.current = Token.endAt f.stop := h.current_eq
    rw [Frame.readOperand, readOperand, get_bind, ended]
    exact gives_noOperand h
  · have first : w.current = t := h.current_eq
    have behind : w.advance.Shows f.stop rest := h.advance
    rw [Frame.readOperand, readOperand, get_bind, first]
    cases t.kind with
    | identifier => exact .ok h
    | integer => exact gives_readInteger h
    | keyword word =>
      cases word with
      | trueWord | falseWord => exact .ok h
      | letWord | returnWord => exact gives_noOperand h
    | operator op =>
      dsimp only
      by_cases unary : op.isUnary
      · rw [if_pos unary, if_pos unary, step_bind]
        exact (hi .unary behind).map _
      · rw [if_neg unary, if_neg unary]
        exact gives_noOperand h
    | punctuation sign =>
      cases sign with
      | lparen =>
        dsimp only
        rw [step_bind]
        rcases hi .lowest behind with ⟨p, w', hr, ho, there⟩ | ⟨e, w', hr, ho, there⟩
        · rw [hr, bind_of_ok ho]
          exact (gives_expect (.punctuation .rparen) (by decide) there).map _
        · rw [hr, bind_of_error ho]
          exact .error there
      | comma | semicolon | rparen | lbrace | rbrace => exact gives_noOperand h
    | illegal | endOfInput => exact gives_noOperand h

/-- The operator that comes up is the one behind the last token. -/
theorem binaryAhead?_eq {stop : Nat} (floor : Precedence) (h : w.Shows stop tokens) :
    binaryAhead? floor w = (binaryAt? floor tokens.tail).map Prod.fst := by
  rw [binaryAhead?, h.upcoming_eq]
  rcases tokens.tail with - | ⟨t, rest⟩
  · rfl
  · rw [Token.head_cons, binaryAt?]
    cases t.kind with
    | operator op =>
      dsimp only
      rw [Operator.binaryPrecedence?]
      by_cases binary : op.isBinary
      · by_cases tighter : floor < op.precedence <;> simp [binary, tighter]
      · simp [binary]
    | identifier | integer | keyword | punctuation | illegal | endOfInput => rfl

/-- **Expressions are read alike**, and so is what extends them. -/
theorem gives_readExpression (f : Frame) (levels : Nat) :
    Agree f (f.readExpression levels) (readExpression f.config.maxDepth levels) ∧
      ∀ (floor : Precedence) (left : Parsed Expr) {w : Window}, w.Shows f.stop left.stand →
        Gives f.stop (f.extend levels floor left)
          (extend f.config.maxDepth levels floor left.value w) := by
  induction levels with
  | zero =>
    constructor
    · intro floor tokens w h
      have faced : w.current = f.facing tokens := h.current_eq
      rw [Frame.readExpression, readExpression, get_bind, faced]
      exact .error h
    · intro floor left w h
      have ahead : binaryAhead? floor w = (binaryAt? floor left.rest).map Prod.fst :=
        binaryAhead?_eq floor h
      have faced : w.upcoming = f.facing left.rest := h.upcoming_eq
      rw [Frame.extend, extend, get_bind, ahead, faced]
      rcases binaryAt? floor left.rest with - | ⟨op, rest⟩
      · exact .ok h
      · exact .error h
  | succ levels ih =>
    obtain ⟨reads, extended⟩ := ih
    constructor
    · intro floor tokens w h
      rw [Frame.readExpression, readExpression]
      rcases gives_readOperand reads h with ⟨left, w', hr, ho, there⟩ | ⟨e, w', hr, ho, there⟩
      · rw [hr, bind_of_ok ho]
        exact extended floor left there
      · rw [hr, bind_of_error ho]
        exact .error there
    · intro floor left w h
      have ahead : binaryAhead? floor w = (binaryAt? floor left.rest).map Prod.fst :=
        binaryAhead?_eq floor h
      rw [Frame.extend, extend, get_bind, ahead]
      rcases at_front : binaryAt? floor left.rest with - | ⟨op, rest⟩
      · exact .ok h
      · obtain ⟨sign, behind, -⟩ := Frame.binaryAt?_eq_some_iff.1 at_front
        have on_sign : w.advance.Shows f.stop (sign :: rest) := behind ▸ h.advance
        have on_operand : w.advance.advance.Shows f.stop rest := on_sign.advance
        dsimp only [Option.map_some]
        rw [step_bind, step_bind]
        rcases reads op.rightFloor on_operand with
          ⟨right, w', hr, ho, there⟩ | ⟨e, w', hr, ho, there⟩
        · rw [hr, bind_of_ok ho]
          exact extended floor (right.map (.binary op left.value)) there
        · rw [hr, bind_of_error ho]
          exact .error there

/-! ### Statements -/

/-- A semicolon that comes up is the one behind the phrase. -/
theorem exists_skipSemicolon_eq {α : Type} {stop : Nat} {p : Parsed α} (h : w.Shows stop p.stand) :
    ∃ w', skipSemicolon w = .ok () w' ∧ w'.Shows stop p.withSemicolon.stand := by
  obtain ⟨value, last, rest⟩ := p
  have ahead : w.upcoming = Token.head stop rest := h.upcoming_eq
  rw [skipSemicolon, get_bind, ahead]
  rcases rest with - | ⟨t, rest⟩
  · exact ⟨w, rfl, h⟩
  · rw [Token.head_cons, Parsed.withSemicolon]
    by_cases semicolon : t.kind = .punctuation .semicolon
    · rw [if_pos semicolon]
      simp only [semicolon]
      exact ⟨w.advance, rfl, h.advance⟩
    · rw [if_neg semicolon]
      simp only [semicolon]
      exact ⟨w, rfl, h⟩

/-- A semicolon behind a phrase is no part of its value. -/
theorem value_withSemicolon {α : Type} (p : Parsed α) : p.withSemicolon.value = p.value := by
  rw [Parsed.withSemicolon]
  split
  · split <;> rfl
  · rfl

/-- Values are read alike. -/
theorem gives_readValue (h : w.Shows f.stop tokens) :
    Gives f.stop (f.readValue tokens) (readValue f.config w) := by
  rw [Frame.readValue, readValue]
  rcases (gives_readExpression f f.config.maxDepth).1 .lowest h with
    ⟨p, w', hr, ho, there⟩ | ⟨e, w', hr, ho, there⟩
  · obtain ⟨w'', skipped, behind⟩ := exists_skipSemicolon_eq there
    rw [hr, bind_of_ok ho, bind_of_ok skipped, ← value_withSemicolon]
    exact .ok behind
  · rw [hr, bind_of_error ho]
    exact .error there

/-- Bindings are read alike. -/
theorem gives_readLet {first : Token} {rest : List Token}
    (h : w.Shows f.stop (first :: rest)) :
    Gives f.stop (f.readLet first rest) (readLet f.config w) := by
  rw [Frame.readLet, readLet]
  rcases gives_expect .identifier (by decide) h with
    ⟨name, w', hr, ho, on_name⟩ | ⟨e, w', hr, ho, there⟩
  · rw [hr, bind_of_ok ho]
    rcases gives_expect (.operator .assign) (by decide) on_name with
      ⟨sign, w'', hr, ho, on_sign⟩ | ⟨e, w'', hr, ho, there⟩
    · simp only [hr]
      rw [bind_of_ok ho, step_bind]
      exact (gives_readValue on_sign.advance).map _
    · simp only [hr]
      rw [bind_of_error ho]
      exact .error there
  · rw [hr, bind_of_error ho]
    exact .error there

/-- **Statements are read alike.** -/
theorem gives_readStatement {first : Token} {rest : List Token}
    (h : w.Shows f.stop (first :: rest)) :
    Gives f.stop (f.readStatement first rest) (readStatement f.config w) := by
  have on_first : w.current = first := h.current_eq
  have behind : w.advance.Shows f.stop rest := h.advance
  rw [Frame.readStatement, readStatement, get_bind, on_first]
  cases first.kind with
  | keyword word =>
    cases word with
    | letWord => exact gives_readLet h
    | returnWord => exact (gives_readValue behind).map _
    | trueWord | falseWord => exact (gives_readValue h).map _
  | identifier | integer | operator | punctuation | illegal | endOfInput =>
    exact (gives_readValue h).map _

end Walk

/-! ### Programs -/

namespace Window

variable {f : Frame} {w : Window} {stop : Nat} {tokens : List Token}

/-- **Recovery goes to the same place.** A window is left in front of the token from which the
statements go on. -/
theorem Shows.synchronize (h : w.Shows stop tokens) :
    w.synchronize.advance.Shows stop (resume tokens) := by
  induction tokens generalizing w with
  | nil =>
    have ended : w.current.kind = .endOfInput := h.current_kind_eq_iff.2 rfl
    rw [Window.synchronize, dif_pos (.inr ended)]
    exact h.advance
  | cons t rest ih =>
    have on_t : w.current = t := h.current_eq
    have behind : w.advance.Shows stop rest := h.advance
    have inside : t.kind ≠ .endOfInput := h.inner t List.mem_cons_self
    rw [Window.synchronize, resume]
    by_cases semicolon : t.kind = .punctuation .semicolon
    · rw [dif_pos (.inl (on_t ▸ semicolon)), if_pos semicolon]
      exact behind
    · rw [dif_neg (on_t ▸ not_or.2 ⟨semicolon, inside⟩), if_neg semicolon]
      -- The token upcoming is the first one behind, which a list is searched from.
      have ahead : w.upcoming = Token.head stop rest := h.upcoming_eq
      have searched := ih behind
      rcases rest with - | ⟨u, more⟩
      · rw [ahead]
        exact searched
      · rw [ahead, Token.head_cons, toBoundary]
        by_cases starts : u.kind.startsStatement
        · rw [if_pos starts, if_pos starts]
          exact behind
        · rw [if_neg starts, if_neg starts]
          exact searched

/-! One equation for each outcome of a pass of the loop. -/

section Passes

variable {config : Config} {statements : List Statement} {errors : List ParseError} {w' : Window}

theorem readProgram_of_end (h : w.current.kind = .endOfInput) :
    w.readProgram config statements errors = (statements, errors, w) := by
  rw [readProgram, dif_pos h]

theorem readProgram_of_ok {s : Statement} (h : w.current.kind ≠ .endOfInput)
    (hr : Walk.readStatement config w = .ok s w') :
    w.readProgram config statements errors =
      w'.advance.readProgram config (statements ++ [s]) errors := by
  rw [readProgram, dif_neg h]
  split
  · rename_i hr'
    obtain ⟨rfl, rfl⟩ := EStateM.Result.ok.inj (hr.symm.trans hr')
    rfl
  · rename_i hr'
    cases hr.symm.trans hr'

theorem readProgram_of_error {e : ParseError} (h : w.current.kind ≠ .endOfInput)
    (hr : Walk.readStatement config w = .error e w') :
    w.readProgram config statements errors =
      w'.synchronize.advance.readProgram config statements (errors ++ [e]) := by
  rw [readProgram, dif_neg h]
  split
  · rename_i hr'
    cases hr.symm.trans hr'
  · rename_i hr'
    obtain ⟨rfl, rfl⟩ := EStateM.Result.error.inj (hr.symm.trans hr')
    rfl

end Passes

/-- **A program is read alike.** Its statements and its errors come behind those so far, and the
window is left with no token to show. -/
theorem Shows.readProgram (h : w.Shows f.stop tokens) (statements : List Statement)
    (errors : List ParseError) :
    ∃ w', w.readProgram f.config statements errors =
        (statements ++ f.statements tokens, errors ++ f.errors tokens, w') ∧
      w'.Shows f.stop [] := by
  induction tokens using f.program_induction generalizing w statements errors with
  | none_left =>
    rw [readProgram_of_end (h.current_kind_eq_iff.2 rfl), f.statements_nil, f.errors_nil,
      List.append_nil, List.append_nil]
    exact ⟨w, rfl, h⟩
  | read first more p hread ih =>
    have inside : w.current.kind ≠ .endOfInput := fun ended ↦ by
      cases h.current_kind_eq_iff.1 ended
    rcases Walk.gives_readStatement h with ⟨p', w', hr, ho, there⟩ | ⟨e, w', hr, -, -⟩
    · obtain rfl := Except.ok.inj (hread.symm.trans hr)
      rw [readProgram_of_ok inside ho, Frame.statements_cons_of_ok hread,
        Frame.errors_cons_of_ok hread, List.append_cons statements p.value (f.statements p.rest)]
      exact ih there.advance (statements ++ [p.value]) errors
    · cases hread.symm.trans hr
  | failed first more e hread ih =>
    have inside : w.current.kind ≠ .endOfInput := fun ended ↦ by
      cases h.current_kind_eq_iff.1 ended
    rcases Walk.gives_readStatement h with ⟨p, w', hr, -, -⟩ | ⟨e', w', hr, ho, there⟩
    · cases hread.symm.trans hr
    · obtain rfl := Except.error.inj (hread.symm.trans hr)
      rw [readProgram_of_error inside ho, Frame.statements_cons_of_error hread,
        Frame.errors_cons_of_error hread,
        List.append_cons errors e.error (f.errors (resume e.stand))]
      exact ih there.synchronize statements (errors ++ [e.error])

/-- **Parsing with two tokens in sight is parsing**, from any place of a lexer. Behind the program
no token is in sight, and reading on adds nothing. -/
theorem parse_eq (config : Config) (l : Lexer) :
    parse config l = l.cursor.parse config ∧
      ∃ w, (ofLexer l).readProgram config [] [] =
          ((parse config l).program.statements, (parse config l).errors, w) ∧
        ∀ statements errors,
          w.readProgram config statements errors = (statements, errors, w) := by
  have shown : (ofLexer l).Shows (⟨config, l.cursor.stop⟩ : Frame).stop l.cursor.pending :=
    Shows.ofLexer l
  obtain ⟨w, read, left⟩ := shown.readProgram [] []
  have ended : w.current.kind = .endOfInput := left.current_kind_eq_iff.2 rfl
  have parsed : parse config l = l.cursor.parse config := by
    rw [parse, read]
    rfl
  rw [parsed]
  exact ⟨rfl, w, read, fun statements errors ↦ readProgram_of_end ended⟩

/-- A source text is parsed with two tokens in sight as it is parsed off its list of tokens. -/
theorem parse_ofSource (config : Config) (source : String) :
    parse config (.ofSource source) = MonkeyLang.parse config source :=
  (parse_eq config (.ofSource source)).1

end Window

end MonkeyLang
