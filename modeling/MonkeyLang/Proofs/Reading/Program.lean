import MonkeyLang.Parse.Program
import MonkeyLang.Proofs.Reading.Statement

/-!
# What parsing a program reads

Parsing against the grammar. A derivation whose minus signs join, and whose clauses all cost no
more than the limit allows, is parsed without an error to its trees
(`parse_of_derivesProgram`); and a parse without errors comes from such a derivation
(`exists_derivesProgram_of_parse`). Both meet in `Clause.endsBefore_iff`: what the reader asks of
the tokens behind a statement is what `MinusJoins` asks of the next one.

An expression alone that costs more is refused as a whole (`parse_of_tooDeep`), since recovery
finds no boundary behind the token on which its reader stood.
-/

namespace MonkeyLang

namespace Clause

/-- A clause starts with a word that opens statements or with a token that expressions start
with. -/
theorem IsDerived.exists_first {c : Clause} (hc : c.IsDerived) :
    ∃ t more, c.tokens = t :: more ∧
      (t.kind.startsStatement = true ∨ t.kind.startsExpression = true) := by
  obtain ⟨o, p, s⟩ := c
  obtain ⟨ho, hp, -⟩ := hc
  rcases o with ⟨word, name, sign⟩ | word | -
  · exact ⟨word, _, rfl, .inl (TokenKind.startsStatement_iff.2 (.inl ho.1))⟩
  · exact ⟨word, _, rfl, .inl (TokenKind.startsStatement_iff.2 (.inr ho))⟩
  · obtain ⟨t, more, ht, hk⟩ := (Nonterminal.expression_derives_iff.1 hp).exists_first
    exact ⟨t, more ++ s.toList, by simp [tokens, Opening.tokens, ht], .inr hk⟩

/-- A clause ends before the next one exactly if a minus in front of that would not join. -/
theorem endsBefore_iff {c d : Clause} (hd : d.IsDerived) (rest : List Token) :
    c.EndsBefore (d.tokens ++ rest) ↔ (c.semicolon? = none → ¬ d.StartsWithMinus) := by
  obtain ⟨t, more, ht, hk⟩ := hd.exists_first
  have first : ∀ u, u ∈ d.tokens.head? ↔ u = t := by
    intro u
    simp [ht, eq_comm]
  refine imp_congr_right fun _ ↦ ?_
  rw [ht, List.cons_append]
  constructor
  · rintro ⟨hn, -⟩ ⟨u, hu, hminus⟩
    obtain rfl := (first u).1 hu
    exact absurd (binaryAt?_eq_none_iff.1 hn u _ .minus rfl hminus (by decide)) (by decide)
  · intro hminus
    constructor
    · refine binaryAt?_eq_none_iff.2 fun u _ op hu hop hb ↦ ?_
      obtain ⟨rfl, -⟩ := List.cons.inj hu
      rw [hop] at hk
      have both : op = .minus := by
        revert hb hk
        cases op <;> decide
      exact absurd ⟨t, (first t).2 rfl, both ▸ hop⟩ hminus
    · rintro u hu hsemi
      obtain rfl : t = u := by simpa using hu
      rw [hsemi] at hk
      revert hk
      decide

end Clause

/-- A clause ends before the end of the tokens. -/
theorem Clause.endsBefore_nil (c : Clause) : c.EndsBefore [] := fun _ ↦ ⟨rfl, by simp⟩

/-- Where minus signs join, every clause ends before the ones behind it and what follows these, if
the last of them ends before that. -/
theorem MinusJoins.endsBefore_append {c : Clause} {cs : List Clause} (h : MinusJoins (c :: cs))
    (hcs : ∀ d ∈ cs, d.IsDerived) {rest : List Token}
    (hr : ∀ d ∈ (c :: cs).getLast?, d.EndsBefore rest) :
    c.EndsBefore (cs.flatMap Clause.tokens ++ rest) := by
  rcases cs with - | ⟨d, ds⟩
  · exact hr c rfl
  · rw [List.flatMap_cons, List.append_assoc, Clause.endsBefore_iff (hcs d List.mem_cons_self)]
    exact List.rel_of_isChain_cons_cons h

/-- Where minus signs join, every clause ends before the ones behind it. -/
theorem MinusJoins.endsBefore {c : Clause} {cs : List Clause} (h : MinusJoins (c :: cs))
    (hcs : ∀ d ∈ cs, d.IsDerived) : c.EndsBefore (cs.flatMap Clause.tokens) := by
  have ends := h.endsBefore_append hcs fun d _ ↦ d.endsBefore_nil
  rwa [List.append_nil] at ends

/-! ### Attempts -/

namespace Attempt

variable {a : Attempt}

theorem rest_of_ok {p : Parsed Statement} (h : a.outcome = .ok p) : a.rest = p.rest := by
  rw [Attempt.rest, h]

theorem rest_of_error {e : Failure} (h : a.outcome = .error e) : a.rest = resume e.stand := by
  rw [Attempt.rest, h]

theorem statement?_of_ok {p : Parsed Statement} (h : a.outcome = .ok p) :
    a.statement? = some p.value := by
  rw [statement?, h]

theorem statement?_of_error {e : Failure} (h : a.outcome = .error e) : a.statement? = none := by
  rw [statement?, h]

theorem error?_of_ok {p : Parsed Statement} (h : a.outcome = .ok p) : a.error? = none := by
  rw [error?, h]

theorem error?_of_error {e : Failure} (h : a.outcome = .error e) : a.error? = some e.error := by
  rw [error?, h]

section Make

variable {f : Frame} {first : Token} {more : List Token}

theorem rest_make_of_ok {p : Parsed Statement} (h : f.readStatement first more = .ok p) :
    (make f first more).rest = p.rest :=
  rest_of_ok h

theorem rest_make_of_error {e : Failure} (h : f.readStatement first more = .error e) :
    (make f first more).rest = resume e.stand :=
  rest_of_error h

end Make

/-- An attempt leaves tokens behind the first one. -/
theorem rest_make_suffix (f : Frame) (first : Token) (more : List Token) :
    (make f first more).rest <:+ more := by
  have behind : ∀ {tokens : List Token}, tokens <:+ first :: more → tokens.tail <:+ more := by
    intro tokens h
    rcases List.suffix_cons_iff.1 h with rfl | h
    · exact List.suffix_refl _
    · exact (List.tail_suffix tokens).trans h
  have inside := f.stand_readStatement_suffix first more
  rcases h : f.readStatement first more with e | p
  · rw [h] at inside
    rw [rest_make_of_error h]
    exact (resume_suffix_tail e.stand).trans (behind inside)
  · rw [h] at inside
    rw [rest_make_of_ok h]
    exact behind inside

/-- What an attempt leaves stands at the end of what it was given. -/
theorem rest_make_suffix_cons (f : Frame) (first : Token) (more : List Token) :
    (make f first more).rest <:+ first :: more :=
  (rest_make_suffix f first more).trans (List.suffix_cons first more)

end Attempt

namespace Frame

variable (f : Frame)

/-- **Induction along the attempts at a program**: none are left, or there is a first one, and the
others are at what it leaves. -/
@[elab_as_elim]
theorem attempts_induction {motive : List Token → Prop} (none_left : motive [])
    (attempted : ∀ (first : Token) (more : List Token),
      motive (Attempt.make f first more).rest → motive (first :: more))
    (tokens : List Token) : motive tokens := by
  induction hn : tokens.length using Nat.strongRecOn generalizing tokens with
  | _ n ih =>
    subst hn
    rcases tokens with - | ⟨first, more⟩
    · exact none_left
    · exact attempted first more (ih _ (Attempt.length_rest_lt f first more) _ rfl)

/-- An attempt in its place: it begins with one of the tokens, and the next attempt is the first one
at what it leaves. -/
theorem exists_make_of_getElem?_attempts {tokens : List Token} {n : Nat} {a : Attempt}
    (h : (f.attempts tokens)[n]? = some a) :
    ∃ first more, first :: more <:+ tokens ∧ a = .make f first more ∧
      (f.attempts tokens)[n + 1]? = (f.attempts a.rest)[0]? := by
  induction tokens using attempts_induction f generalizing n with
  | none_left =>
    rw [attempts_nil] at h
    cases h
  | attempted first more ih =>
    rw [attempts_cons] at h ⊢
    rcases n with - | n
    · obtain rfl := Option.some.inj h
      exact ⟨first, more, List.suffix_refl _, rfl, rfl⟩
    · obtain ⟨t, ts, inside, ha, next⟩ := ih h
      exact ⟨t, ts, inside.trans (Attempt.rest_make_suffix_cons f first more), ha, next⟩

/-- Every attempt begins with one of the tokens. -/
theorem exists_make_of_mem_attempts {tokens : List Token} {a : Attempt}
    (h : a ∈ f.attempts tokens) : ∃ first more, first :: more <:+ tokens ∧ a = .make f first more := by
  obtain ⟨n, hn⟩ := List.getElem?_of_mem h
  obtain ⟨first, more, inside, ha, -⟩ := f.exists_make_of_getElem?_attempts hn
  exact ⟨first, more, inside, ha⟩

/-! ### The statements and the errors of a list of tokens -/

/-- The statements that are read off the tokens of a program. -/
def statements (tokens : List Token) : List Statement :=
  (f.attempts tokens).filterMap Attempt.statement?

/-- The errors that are met in the tokens of a program. -/
def errors (tokens : List Token) : List ParseError :=
  (f.attempts tokens).filterMap Attempt.error?

@[simp] theorem statements_nil : f.statements [] = [] := by
  rw [statements, attempts_nil, List.filterMap_nil]

@[simp] theorem errors_nil : f.errors [] = [] := by
  rw [errors, attempts_nil, List.filterMap_nil]

variable {f} {first : Token} {more : List Token}

/-- A statement that is read stands in front of those behind it. -/
theorem statements_cons_of_ok {e : Parsed Statement} (h : f.readStatement first more = .ok e) :
    f.statements (first :: more) = e.value :: f.statements e.rest := by
  rw [statements, attempts_cons, Attempt.make, h]
  rfl

/-- A statement that is read adds no error to those behind it. -/
theorem errors_cons_of_ok {e : Parsed Statement} (h : f.readStatement first more = .ok e) :
    f.errors (first :: more) = f.errors e.rest := by
  rw [errors, attempts_cons, Attempt.make, h]
  rfl

/-- A statement that fails adds none to those behind the boundary. -/
theorem statements_cons_of_error {e : Failure} (h : f.readStatement first more = .error e) :
    f.statements (first :: more) = f.statements (resume e.stand) := by
  rw [statements, attempts_cons, Attempt.make, h]
  rfl

/-- A statement that fails puts its error in front of those behind the boundary. -/
theorem errors_cons_of_error {e : Failure} (h : f.readStatement first more = .error e) :
    f.errors (first :: more) = e.error :: f.errors (resume e.stand) := by
  rw [errors, attempts_cons, Attempt.make, h]
  rfl

/-- A statement that is read leaves tokens behind its first one. -/
theorem rest_suffix_of_readStatement {p : Parsed Statement}
    (h : f.readStatement first more = .ok p) : p.rest <:+ more :=
  Attempt.rest_make_of_ok h ▸ Attempt.rest_make_suffix f first more

/-- So does a statement that fails. -/
theorem resume_suffix_of_readStatement {e : Failure}
    (h : f.readStatement first more = .error e) : resume e.stand <:+ more :=
  Attempt.rest_make_of_error h ▸ Attempt.rest_make_suffix f first more

/-- **Induction along the statements of a program**: none are left, or there is a first one, which
is read or fails, and the others are in what it leaves. -/
@[elab_as_elim]
theorem program_induction {motive : List Token → Prop} (f : Frame) (none_left : motive [])
    (read : ∀ (first : Token) (more : List Token) (p : Parsed Statement),
      f.readStatement first more = .ok p → motive p.rest → motive (first :: more))
    (failed : ∀ (first : Token) (more : List Token) (e : Failure),
      f.readStatement first more = .error e → motive (resume e.stand) → motive (first :: more))
    (tokens : List Token) : motive tokens := by
  induction tokens using attempts_induction f with
  | none_left => exact none_left
  | attempted first more ih =>
    rcases h : f.readStatement first more with e | p
    · exact failed first more e h (Attempt.rest_make_of_error h ▸ ih)
    · exact read first more p h (Attempt.rest_make_of_ok h ▸ ih)

/-! ### Programs against the grammar -/

/-- A derivation whose minus signs join is read clause by clause in front of other tokens, if its
last clause ends before these. -/
theorem program_flatMap_append {cs : List Clause} (hcs : ∀ c ∈ cs, c.IsDerived)
    (hm : MinusJoins cs) (hl : ∀ c ∈ cs, c.value.cost ≤ f.config.maxDepth) {rest : List Token}
    (hr : ∀ c ∈ cs.getLast?, c.EndsBefore rest) :
    f.statements (cs.flatMap Clause.tokens ++ rest) = cs.map Clause.tree ++ f.statements rest ∧
      f.errors (cs.flatMap Clause.tokens ++ rest) = f.errors rest := by
  induction cs with
  | nil => exact ⟨rfl, rfl⟩
  | cons c cs ih =>
    rw [List.forall_mem_cons] at hcs hl
    obtain ⟨first, more, ht, hread⟩ :=
      f.readStatement_append hcs.1 (hm.endsBefore_append hcs.2 hr) hl.1
    have behind : ∀ d ∈ cs.getLast?, d.EndsBefore rest := fun d hd ↦
      hr d (List.mem_getLast?_cons hd)
    obtain ⟨trees, errors⟩ := ih hcs.2 hm.tail hl.2 behind
    rw [List.flatMap_cons, List.append_assoc, ht, statements_cons_of_ok hread,
      errors_cons_of_ok hread]
    exact ⟨congrArg (c.tree :: ·) trees, errors⟩

/-- A derivation whose minus signs join is read clause by clause. -/
theorem statements_flatMap_tokens {cs : List Clause} (hcs : ∀ c ∈ cs, c.IsDerived)
    (hm : MinusJoins cs) (hl : ∀ c ∈ cs, c.value.cost ≤ f.config.maxDepth) :
    f.statements (cs.flatMap Clause.tokens) = cs.map Clause.tree ∧
      f.errors (cs.flatMap Clause.tokens) = [] := by
  have read := program_flatMap_append (f := f) hcs hm hl fun c _ ↦ c.endsBefore_nil
  rwa [List.append_nil, statements_nil, errors_nil, List.append_nil] at read

/-- What is read without an error has a derivation whose minus signs join. -/
theorem exists_derivesProgram_of_errors {tokens : List Token} (h : f.errors tokens = []) :
    ∃ cs, DerivesProgram tokens cs ∧ MinusJoins cs ∧
      (∀ c ∈ cs, c.value.cost ≤ f.config.maxDepth) ∧ f.statements tokens = cs.map Clause.tree := by
  induction tokens using program_induction f with
  | none_left => exact ⟨[], ⟨by simp, rfl⟩, .nil, by simp, f.statements_nil⟩
  | failed first more e hread ih =>
    rw [errors_cons_of_error hread] at h
    cases h
  | read first more e hread ih =>
    -- The first statement is a clause, and the rest is without errors too.
    obtain ⟨c, hc⟩ := f.exists_clause_of_readStatement hread
    rw [errors_cons_of_ok hread] at h
    obtain ⟨cs, ⟨hcs, hts⟩, hm, hl, trees⟩ := ih h
    refine ⟨c :: cs, ⟨List.forall_mem_cons.2 ⟨hc.derived, hcs⟩, ?_⟩, ?_,
      List.forall_mem_cons.2 ⟨hc.cost_le, hl⟩, ?_⟩
    · rw [List.flatMap_cons, hts, hc.tokens_eq]
    · rcases cs with - | ⟨d, ds⟩
      · exact .singleton c
      · refine .cons_cons ?_ hm
        rw [← Clause.endsBefore_iff (hcs d List.mem_cons_self) (ds.flatMap Clause.tokens),
          ← List.flatMap_cons, hts]
        exact hc.ends
    · rw [statements_cons_of_ok hread, trees, ← hc.parsed_eq]
      rfl

/-- Every statement that is read comes from a clause of the tokens, whatever else fails. -/
theorem exists_clause_of_mem_statements {tokens : List Token} {s : Statement}
    (h : s ∈ f.statements tokens) :
    ∃ c : Clause, c.IsDerived ∧ c.value.cost ≤ f.config.maxDepth ∧ c.tree = s ∧
      c.tokens ⊆ tokens := by
  induction tokens using program_induction f with
  | none_left =>
    rw [statements_nil] at h
    cases h
  | failed first more e hread ih =>
    rw [statements_cons_of_error hread] at h
    obtain ⟨c, hc, hl, hs, inside⟩ := ih h
    have behind := (resume_suffix_of_readStatement hread).trans (List.suffix_cons first more)
    exact ⟨c, hc, hl, hs, List.Subset.trans inside behind.subset⟩
  | read first more e hread ih =>
    rw [statements_cons_of_ok hread] at h
    rcases List.mem_cons.1 h with rfl | h
    · obtain ⟨c, hc⟩ := f.exists_clause_of_readStatement hread
      exact ⟨c, hc.derived, hc.cost_le, congrArg Parsed.value hc.parsed_eq,
        hc.tokens_eq ▸ List.subset_append_left _ _⟩
    · obtain ⟨c, hc, hl, hs, inside⟩ := ih h
      have behind := (rest_suffix_of_readStatement hread).trans (List.suffix_cons first more)
      exact ⟨c, hc, hl, hs, List.Subset.trans inside behind.subset⟩

end Frame

/-! ### Giving up a statement -/

/-- Where no boundary is ahead, nothing is left to go on with. -/
theorem resume_eq_nil {tokens : List Token} (h : ∀ t ∈ tokens,
    t.kind.startsStatement = false ∧ t.kind ≠ .punctuation .semicolon) : resume tokens = [] := by
  have none_left : ∀ ts : List Token, (∀ t ∈ ts,
      t.kind.startsStatement = false ∧ t.kind ≠ .punctuation .semicolon) → toBoundary ts = [] := by
    intro ts hts
    induction ts with
    | nil => rfl
    | cons t ts ih =>
      rw [List.forall_mem_cons] at hts
      rw [toBoundary, hts.1.1, if_neg Bool.false_ne_true, if_neg hts.1.2, ih hts.2]
  rcases tokens with - | ⟨t, rest⟩
  · rfl
  · rw [List.forall_mem_cons] at h
    rw [resume, if_neg h.1.2, none_left rest h.2]

/-- No expression has a boundary between statements inside. -/
theorem Phrase.TighterThan.no_boundary {p : Phrase} {floor : Precedence}
    (h : p.TighterThan floor) :
    ∀ t ∈ p.tokens, t.kind.startsStatement = false ∧ t.kind ≠ .punctuation .semicolon := by
  have clear : ∀ {t : Token} {k : TokenKind}, t.kind = k →
      k.startsStatement = false ∧ k ≠ .punctuation .semicolon →
        t.kind.startsStatement = false ∧ t.kind ≠ .punctuation .semicolon := by
    rintro t _ rfl hk
    exact hk
  induction p generalizing floor with
  | identifier t => simpa [tokens] using clear h (by decide)
  | integer t => simpa [tokens] using clear h.1 (by decide)
  | boolean value t => simpa [tokens] using clear h (by cases value <;> decide)
  | unary op sign operand ih =>
    rw [tokens, List.forall_mem_cons]
    exact ⟨clear h.1 (by simp [TokenKind.startsStatement]), ih h.2.2⟩
  | binary op left sign right ihl ihr =>
    obtain ⟨⟨hs, -⟩, -, hl, hr⟩ := h
    rw [tokens, List.forall_mem_append, List.forall_mem_cons]
    exact ⟨ihl hl, clear hs (by simp [TokenKind.startsStatement]), ihr hr⟩
  | parens opening inner closing ih =>
    obtain ⟨ho, hx, hc⟩ := h
    rw [tokens, List.forall_mem_cons, List.forall_mem_append, List.forall_mem_singleton]
    exact ⟨clear ho (by decide), ih hx, clear hc (by decide)⟩

/-! ### Parsing -/

/-- What stays fixed while a source text is parsed. -/
def sourceFrame (config : Config) (source : String) : Frame :=
  ⟨config, (Cursor.start source).stop⟩

/-- A parse is the statements and the errors of the tokens. -/
theorem parse_eq (config : Config) (source : String) :
    parse config source =
      ⟨⟨(sourceFrame config source).statements (Cursor.start source).pending⟩,
        (sourceFrame config source).errors (Cursor.start source).pending⟩ :=
  rfl

/-- **A derivation is parsed to its trees**, if its minus signs join and its clauses cost no more
than the limit allows. -/
theorem parse_of_derivesProgram {config : Config} {source : String} {cs : List Clause}
    (h : DerivesProgram (Cursor.start source).pending cs) (hm : MinusJoins cs)
    (hl : ∀ c ∈ cs, c.value.cost ≤ config.maxDepth) :
    parse config source = ⟨⟨cs.map Clause.tree⟩, []⟩ := by
  obtain ⟨trees, clean⟩ := Frame.statements_flatMap_tokens h.derived hm hl
    (f := sourceFrame config source)
  rw [parse_eq, ← h.tokens_eq, trees, clean]

/-- **A parse without errors has a derivation** whose minus signs join and whose clauses cost no
more than the limit allows. -/
theorem exists_derivesProgram_of_parse {config : Config} {source : String}
    (h : (parse config source).errors = []) :
    ∃ cs, DerivesProgram (Cursor.start source).pending cs ∧ MinusJoins cs ∧
      (∀ c ∈ cs, c.value.cost ≤ config.maxDepth) ∧
      (parse config source).program = ⟨cs.map Clause.tree⟩ := by
  rw [parse_eq] at h ⊢
  obtain ⟨cs, hcs, hm, hl, trees⟩ := Frame.exists_derivesProgram_of_errors h
  exact ⟨cs, hcs, hm, hl, congrArg Program.mk trees⟩

/-- An expression alone is parsed to its tree, if it costs no more than the limit allows. -/
theorem parse_of_phrase {config : Config} {source : String} {p : Phrase}
    (h : (Cursor.start source).pending = p.tokens) (hp : p.TighterThan .lowest)
    (hl : p.cost ≤ config.maxDepth) :
    parse config source = ⟨⟨[.expressionStatement p.tree]⟩, []⟩ := by
  let c : Clause := ⟨.bare, p, none⟩
  have hc : c.IsDerived := ⟨trivial, Nonterminal.expression_derives_iff.2 hp, by simp [c]⟩
  have derives : DerivesProgram (Cursor.start source).pending [c] :=
    ⟨by simpa using hc, by simp [h, c, Clause.tokens, Opening.tokens]⟩
  exact parse_of_derivesProgram derives (.singleton c) (by simpa [c] using hl)

/-- An expression alone that fails with no boundary ahead leaves its error and nothing else. -/
theorem parse_of_readExpression_error {config : Config} {source : String} {first : Token}
    {more : List Token} {e : Failure} (h : (Cursor.start source).pending = first :: more)
    (hk : first.kind.startsExpression = true)
    (he : (sourceFrame config source).readExpression config.maxDepth .lowest (first :: more) =
      .error e)
    (spent : resume e.stand = []) : parse config source = ⟨⟨[]⟩, [e.error]⟩ := by
  obtain ⟨_, _, opens, hread⟩ :=
    (sourceFrame config source).readStatement_opening (o := .bare) trivial ⟨first, more, rfl, hk⟩
  obtain ⟨rfl, rfl⟩ := List.cons.inj opens
  have value : (sourceFrame config source).readValue (first :: more) = .error e :=
    congrArg (Except.map Parsed.withSemicolon) he
  have refused : (sourceFrame config source).readStatement first more = .error e := by
    rw [hread, value]
    rfl
  rw [parse_eq, h, Frame.statements_cons_of_error refused, Frame.errors_cons_of_error refused,
    spent, Frame.statements_nil, Frame.errors_nil]

/-- **An expression alone is refused as a whole** if it costs more than the limit allows. -/
theorem parse_of_tooDeep {config : Config} {source : String} {p : Phrase}
    (h : (Cursor.start source).pending = p.tokens) (hp : p.TighterThan .lowest)
    (hl : config.maxDepth < p.cost) :
    (parse config source).program = ⟨[]⟩ ∧
      ∃ span, (parse config source).errors = [⟨.nestingTooDeep config.maxDepth, span⟩] := by
  obtain ⟨first, more, ht, hk⟩ := hp.exists_first
  obtain ⟨e, he, hcause⟩ :=
    @Frame.readExpression_tooDeep (sourceFrame config source) _ _ [] _ hp hl
  rw [List.append_nil] at he
  -- The reader stands on a token of the expression, and there is no boundary behind it.
  have spent : resume e.stand = [] := by
    have inside :=
      (sourceFrame config source).stand_readExpression_suffix config.maxDepth .lowest p.tokens
    rw [he, Reading.stand_error] at inside
    exact resume_eq_nil fun t ht ↦ hp.no_boundary t (inside.subset ht)
  rw [parse_of_readExpression_error (h.trans ht) hk (ht ▸ he) spent]
  obtain ⟨⟨cause, span⟩, stand⟩ := e
  obtain rfl : cause = .nestingTooDeep config.maxDepth := hcause
  exact ⟨rfl, span, rfl⟩

end MonkeyLang
