import MonkeyLang.Proofs.Lexing.Place
import MonkeyLang.Proofs.Reading.Program

/-!
# What errors cite

Every error cites a token of the text, the end of the input among them, and what it says of that
token holds of it. No token is cited twice: the errors of a text cite tokens in the order in which
they stand (`errors_cite_tokens`).

A reader that fails cites the token on which it stands, or the one behind it, and `Failure.Cites`
keeps the two apart. It is preserved from reader to reader (`Reading.IsSound`); what it takes in
addition is that no phrase ends with a semicolon. The order follows from where attempts begin: a
token that was cited is left behind (`Failure.Cites.citable_resume_suffix`), unless it starts the
next statement, and a statement never cites the word that starts it.
-/

namespace MonkeyLang

/-- No two kinds of token share a tag. -/
theorem TokenKind.tag_injective {k k' : TokenKind} (h : k.tag = k'.tag) : k = k' := by
  have find : ∀ k ∈ all, ofTag? k.tag = some k := by decide +kernel
  have found := find k (mem_all k)
  rw [h, find k' (mem_all k')] at found
  exact (Option.some.inj found).symm

/-- What a cause says holds of the token that its error cites, with a given limit on nesting. -/
def ParseError.Cause.HoldsOf (limit : Nat) (t : Token) : ParseError.Cause → Prop
  | unexpectedToken expected found => found = t.kind ∧ expected.tag ≠ found.tag ∧
      expected ∈ [TokenKind.identifier, .operator .assign, .punctuation .rparen]
  | noOperand kind => kind = t.kind ∧
      kind ∉ [TokenKind.illegal, .identifier, .integer, .keyword .trueWord, .keyword .falseWord,
        .operator .minus, .operator .bang, .punctuation .lparen]
  | illegalCharacter literal => t.kind = .illegal ∧ literal = t.text
  | integerTooLarge literal => t.kind = .integer ∧ literal = t.text ∧
      2 ^ 63 - 1 < decimalValue literal.toList
  | nestingTooDeep depth => depth = limit

/-- An error cites a token when it has the token's span and says what holds of the token. -/
structure ParseError.Cites (e : ParseError) (limit : Nat) (t : Token) : Prop where
  span_eq : e.span = t.span
  holds : e.cause.HoldsOf limit t

/-! ### Failures -/

/-- A failure cites the first of the given tokens: that on which reading stood, or the one behind
it. Only the second kind says which token was due, and it never cites the end of the input for
anything else. -/
inductive Failure.Cites (f : Frame) : Failure → List Token → Prop
  | here {e : ParseError} {tokens : List Token} (h : e.Cites f.config.maxDepth (f.facing tokens))
    (hu : ∀ expected found, e.cause ≠ .unexpectedToken expected found) : Cites f ⟨e, tokens⟩ tokens
  | next {e : ParseError} {last : Token} {tokens : List Token}
    (h : e.Cites f.config.maxDepth (f.facing tokens)) (hl : last.kind ≠ .punctuation .semicolon)
    (hu : tokens = [] → ∃ expected found, e.cause = .unexpectedToken expected found) :
    Cites f ⟨e, last :: tokens⟩ tokens

/-- A reading of a phrase that does not end with a semicolon, or a failure that cites a token. -/
def Reading.IsSound {α : Type} (f : Frame) : Reading α → Prop
  | .ok p => p.last.kind ≠ .punctuation .semicolon
  | .error e => ∃ tokens, e.Cites f tokens

theorem Reading.IsSound.map {α β : Type} {f : Frame} {r : Reading α} (h : r.IsSound f)
    (g : α → β) : Reading.IsSound f (r.map (.map g)) := by
  cases r with
  | ok p => exact h
  | error e => exact h

namespace Frame

variable (f : Frame)

theorem cites_tooDeep_here (tokens : List Token) : (f.tooDeep tokens tokens).Cites f tokens :=
  .here ⟨rfl, rfl⟩ (by simp)

/-- Where no expression can start, reading fails on the token that stands there. -/
theorem cites_noOperand {tokens : List Token}
    (h : (f.facing tokens).kind.startsExpression = false) :
    (f.noOperand tokens).Cites f tokens := by
  rw [noOperand]
  split
  · rename_i hk
    exact .here ⟨rfl, hk, rfl⟩ (by simp)
  · rename_i hk
    refine .here ⟨rfl, rfl, fun among ↦ ?_⟩ (by simp)
    rcases List.mem_cons.1 among with illegal | starts
    · exact hk illegal
    · exact Bool.eq_false_iff.1 h (TokenKind.startsExpression_iff.2 starts)

/-- Where another kind of token stands than is due, that token is cited. -/
theorem cites_of_expect {kind : TokenKind} {last : Token} {rest : List Token} {e : Failure}
    (hk : kind ∈ [TokenKind.identifier, .operator .assign, .punctuation .rparen])
    (hl : last.kind ≠ .punctuation .semicolon) (h : f.expect kind last rest = .error e) :
    e.Cites f rest := by
  rw [expect] at h
  split at h
  · cases h
  · rename_i other
    obtain rfl := Except.error.inj h
    exact .next ⟨rfl, rfl, fun same ↦ other (TokenKind.tag_injective same).symm, hk⟩ hl
      fun _ ↦ ⟨_, _, rfl⟩

/-- Operands are read soundly, if the expressions inside them are. -/
theorem isSound_readOperand {inner : Precedence → List Token → Reading Expr}
    (hi : ∀ floor tokens, (inner floor tokens).IsSound f) (tokens : List Token) :
    (f.readOperand inner tokens).IsSound f := by
  have leaf : ∀ {t : Token} {k : TokenKind}, t.kind = k → k ≠ .punctuation .semicolon →
      t.kind ≠ .punctuation .semicolon := by
    rintro t _ rfl hk
    exact hk
  cases tokens with
  | nil => exact ⟨_, f.cites_noOperand rfl⟩
  | cons t rest =>
    rw [readOperand]
    split
    · rename_i hk
      exact leaf hk (by decide)
    · rename_i hk
      rw [readInteger]
      split
      · exact leaf hk (by decide)
      · rename_i large
        exact ⟨t :: rest, .here ⟨rfl, hk, rfl, not_le.1 large⟩ (by simp)⟩
    · rename_i hk
      exact leaf hk (by decide)
    · rename_i hk
      exact leaf hk (by decide)
    · rename_i op hk
      split
      · exact (hi _ rest).map _
      · rename_i hop
        refine ⟨_, f.cites_noOperand ?_⟩
        rw [facing, Token.head_cons, hk]
        exact Bool.eq_false_iff.2 hop
    · have inside := hi .lowest rest
      split
      · rename_i e he
        rw [he] at inside
        exact inside
      · rename_i p hp
        rw [hp] at inside
        rcases hc : f.expect (.punctuation .rparen) p.last p.rest with e | closing
        · exact ⟨p.rest, f.cites_of_expect (by decide) inside hc⟩
        · obtain ⟨t, behind, -, ht, rfl⟩ := (f.expect_eq_ok_iff (by decide)).1 hc
          exact leaf ht (by decide)
    · refine ⟨_, f.cites_noOperand (Bool.eq_false_iff.2 fun starts ↦ ?_)⟩
      rw [facing, Token.head_cons, TokenKind.startsExpression_iff] at starts
      simp_all

/-- **Expressions are read soundly**, and so is what extends a phrase that does not end with a
semicolon. -/
theorem isSound_readExpression (levels : Nat) :
    (∀ floor tokens, (f.readExpression levels floor tokens).IsSound f) ∧
      ∀ floor (left : Parsed Expr), left.last.kind ≠ .punctuation .semicolon →
        (f.extend levels floor left).IsSound f := by
  induction levels with
  | zero =>
    constructor
    · intro floor tokens
      rw [readExpression]
      exact ⟨tokens, f.cites_tooDeep_here tokens⟩
    · intro floor left hl
      rw [extend]
      split
      · exact hl
      · rename_i op rest h
        obtain ⟨t, ht, -⟩ := binaryAt?_eq_some_iff.1 h
        exact ⟨left.rest, .next ⟨rfl, rfl⟩ hl fun hn ↦ by rw [hn] at ht; cases ht⟩
  | succ levels ih =>
    obtain ⟨reads, extended⟩ := ih
    constructor
    · intro floor tokens
      have operand := f.isSound_readOperand reads tokens
      rw [readExpression]
      split
      · rename_i e he
        rwa [he] at operand
      · rename_i left hleft
        rw [hleft] at operand
        exact extended floor left operand
    · intro floor left hl
      rw [extend]
      split
      · exact hl
      · rename_i op rest h
        have right := reads op.rightFloor rest
        split
        · rename_i e he
          rwa [he] at right
        · rename_i p hp
          rw [hp] at right
          exact extended floor _ right

end Frame

/-! ### Statements -/

/-- The tokens that an attempt may cite: all that it is given, but for a first one that starts a
binding or a return. -/
def citable : List Token → List Token
  | [] => []
  | t :: rest => if t.kind.startsStatement then rest else t :: rest

theorem citable_suffix (tokens : List Token) : citable tokens <:+ tokens := by
  cases tokens with
  | nil => exact List.suffix_refl _
  | cons t rest =>
    rw [citable]
    split
    · exact List.suffix_cons t rest
    · exact List.suffix_refl _

/-- All but the first token may be cited. -/
theorem suffix_citable_cons (t : Token) (rest : List Token) : rest <:+ citable (t :: rest) := by
  rw [citable]
  split
  · exact List.suffix_refl _
  · exact List.suffix_cons t rest

/-- The error of a failure cites the first of the tokens. -/
theorem Failure.Cites.cites_facing {f : Frame} {e : Failure} {cited : List Token}
    (h : e.Cites f cited) : e.error.Cites f.config.maxDepth (f.facing cited) := by
  cases h with
  | here h hu => exact h
  | next h hl hu => exact h

/-- The cited token is the one on which reading stood, or stands behind it. -/
theorem Failure.Cites.suffix_stand {f : Frame} {e : Failure} {cited : List Token}
    (h : e.Cites f cited) : cited <:+ e.stand := by
  cases h with
  | here h hu => exact List.suffix_refl _
  | next h hl hu => exact List.suffix_cons _ _

namespace Frame

variable (f : Frame)

/-- A value that fails cites one of its tokens, or the end of the input. -/
theorem exists_cites_of_readValue {tokens : List Token} {e : Failure}
    (h : f.readValue tokens = .error e) : ∃ cited, e.Cites f cited ∧ cited <:+ tokens := by
  have sound := (f.isSound_readExpression f.config.maxDepth).1 .lowest tokens
  have inside := f.stand_readValue_suffix tokens
  rw [h] at inside
  rw [Reading.map_eq_error_iff.1 h] at sound
  obtain ⟨cited, hc⟩ := sound
  exact ⟨cited, hc, hc.suffix_stand.trans inside⟩

/-- A binding that fails cites a token behind its first one, or the end of the input. -/
theorem exists_cites_of_readLet {first : Token} {more : List Token} {e : Failure}
    (hl : first.kind ≠ .punctuation .semicolon) (h : f.readLet first more = .error e) :
    ∃ cited, e.Cites f cited ∧ cited <:+ more := by
  rw [readLet] at h
  rcases hname : f.expect .identifier first more with e' | name
  · rw [hname] at h
    obtain rfl := Except.error.inj h
    exact ⟨more, f.cites_of_expect (by decide) hl hname, List.suffix_refl _⟩
  obtain ⟨t, behind, rfl, ht, rfl⟩ := (f.expect_eq_ok_iff (by decide)).1 hname
  rw [hname] at h
  simp only at h
  rcases hsign : f.expect (.operator .assign) t behind with e' | sign
  · have hlt : t.kind ≠ .punctuation .semicolon := by
      rw [ht]
      decide
    rw [hsign] at h
    obtain rfl := Except.error.inj h
    exact ⟨behind, f.cites_of_expect (by decide) hlt hsign, List.suffix_cons t behind⟩
  obtain ⟨u, value, rfl, -, rfl⟩ := (f.expect_eq_ok_iff (by decide)).1 hsign
  rw [hsign] at h
  obtain ⟨cited, hc, inside⟩ := f.exists_cites_of_readValue (Reading.map_eq_error_iff.1 h)
  exact ⟨cited, hc, inside.trans ((List.suffix_cons u value).trans (List.suffix_cons t _))⟩

/-- **A statement that fails cites a token that it may cite**, or the end of the input. -/
theorem exists_cites_of_readStatement {first : Token} {more : List Token} {e : Failure}
    (h : f.readStatement first more = .error e) :
    ∃ cited, e.Cites f cited ∧ cited <:+ citable (first :: more) := by
  rw [citable]
  rw [readStatement] at h
  split at h
  · rename_i hk
    rw [if_pos (TokenKind.startsStatement_iff.2 (.inl hk))]
    refine f.exists_cites_of_readLet ?_ h
    rw [hk]
    decide
  · rename_i hk
    rw [if_pos (TokenKind.startsStatement_iff.2 (.inr hk))]
    exact f.exists_cites_of_readValue (Reading.map_eq_error_iff.1 h)
  · rename_i hl hr
    rw [if_neg fun starts ↦ (TokenKind.startsStatement_iff.1 starts).elim hl hr]
    exact f.exists_cites_of_readValue (Reading.map_eq_error_iff.1 h)

end Frame

/-! ### Where the next statement may cite -/

/-- What stands at the next boundary is not cited again, if it starts a statement. -/
theorem citable_toBoundary_suffix (tokens : List Token) :
    citable (toBoundary tokens) <:+ tokens.tail := by
  cases tokens with
  | nil => exact List.suffix_refl _
  | cons t rest =>
    rw [toBoundary]
    split
    · rename_i starts
      rw [citable, if_pos starts]
      exact List.suffix_refl _
    · split
      · exact citable_suffix rest
      · exact (citable_suffix _).trans (toBoundary_suffix rest)

/-- **The statements behind a failure cite tokens behind the one that it cited.** -/
theorem Failure.Cites.citable_resume_suffix {f : Frame} {e : Failure} {cited : List Token}
    (h : e.Cites f cited) : citable (resume e.stand) <:+ cited.tail := by
  cases h with
  | here h hu => exact (citable_suffix _).trans (resume_suffix_tail cited)
  | next h hl hu =>
    show citable (resume (_ :: cited)) <:+ _
    rw [resume, if_neg hl]
    exact citable_toBoundary_suffix cited

/-- Nothing is read behind a failure that cites the end of the input. -/
theorem Failure.Cites.resume_eq_nil {f : Frame} {e : Failure} (h : e.Cites f []) :
    resume e.stand = [] := by
  cases h with
  | here h hu => rfl
  | next h hl hu => exact if_neg hl

/-! ### The errors of a program -/

namespace Frame

variable {f : Frame} {tokens : List Token}

/-- What faces the reader in front of the last tokens is one of the tokens, or their end. -/
theorem facing_mem {cited : List Token} (h : cited <:+ tokens) :
    f.facing cited ∈ tokens ++ [Token.endAt f.stop] := by
  cases cited with
  | nil => exact List.mem_append_right _ (List.mem_singleton_self _)
  | cons t rest => exact List.mem_append_left _ (h.subset List.mem_cons_self)

/-- **Every error cites one of the tokens**, or their end. -/
theorem exists_cites_of_mem_errors {e : ParseError} (h : e ∈ f.errors tokens) :
    ∃ cited, cited <:+ citable tokens ∧ e.Cites f.config.maxDepth (f.facing cited) := by
  induction tokens using program_induction f with
  | none_left =>
    rw [errors_nil] at h
    cases h
  | read first more p hread ih =>
    rw [errors_cons_of_ok hread] at h
    obtain ⟨cited, inside, hc⟩ := ih h
    have behind := (rest_suffix_of_readStatement hread).trans (suffix_citable_cons first more)
    exact ⟨cited, inside.trans ((citable_suffix p.rest).trans behind), hc⟩
  | failed first more e' hread ih =>
    rw [errors_cons_of_error hread] at h
    obtain ⟨cited, hc, inside⟩ := f.exists_cites_of_readStatement hread
    rcases List.mem_cons.1 h with rfl | behind
    · exact ⟨cited, inside, hc.cites_facing⟩
    · obtain ⟨later, hl, hlc⟩ := ih behind
      exact ⟨later, (hl.trans hc.citable_resume_suffix).trans
        ((List.tail_suffix cited).trans inside), hlc⟩

/-- **Errors cite tokens that stand one behind the other**, where the offsets of the tokens grow. -/
theorem pairwise_errors
    (h : (tokens ++ [Token.endAt f.stop]).Pairwise fun t u ↦ t.span.start < u.span.start) :
    (f.errors tokens).Pairwise fun e e' ↦ e.span.start < e'.span.start := by
  induction tokens using program_induction f with
  | none_left =>
    rw [errors_nil]
    exact .nil
  | read first more p hread ih =>
    rw [errors_cons_of_ok hread]
    have behind := (rest_suffix_of_readStatement hread).trans (List.suffix_cons first more)
    exact ih (h.sublist (behind.sublist.append_right _))
  | failed first more e hread ih =>
    rw [errors_cons_of_error hread]
    obtain ⟨cited, hc, inside⟩ := f.exists_cites_of_readStatement hread
    have behind := (resume_suffix_of_readStatement hread).trans (List.suffix_cons first more)
    refine .cons (fun e' he' ↦ ?_) (ih (h.sublist (behind.sublist.append_right _)))
    obtain ⟨later, hl, hlc⟩ := exists_cites_of_mem_errors he'
    rw [hc.cites_facing.span_eq, hlc.span_eq]
    rcases cited with - | ⟨t, rest⟩
    · rw [hc.resume_eq_nil, errors_nil] at he'
      cases he'
    have order := h.sublist ((inside.trans (citable_suffix _)).sublist.append_right _)
    exact List.rel_of_pairwise_cons order (facing_mem (hl.trans hc.citable_resume_suffix))

end Frame

/-- **Errors are truthful, and no token is cited twice.** Every error of a parse cites a token of
the text and says what holds of it, and the errors stand in the order of the tokens that they
cite. -/
theorem errors_cite_tokens (config : Config) (source : String) :
    (∀ e ∈ (parse config source).errors, ∃ t ∈ tokenize source, e.Cites config.maxDepth t) ∧
      (parse config source).errors.Pairwise fun e e' ↦ e.span.start < e'.span.start := by
  rw [parse_eq]
  constructor
  · intro e he
    obtain ⟨cited, inside, hc⟩ := Frame.exists_cites_of_mem_errors he
    have faced := Frame.facing_mem (f := sourceFrame config source)
      (inside.trans (citable_suffix _))
    exact ⟨_, faced, hc⟩
  · exact Frame.pairwise_errors (Cursor.start source).pairwise_tokens

end MonkeyLang
