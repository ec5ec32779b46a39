import MonkeyLang.Proofs.RoundTrip.WellFormed

/-!
# Parsed expressions written back

Whatever is parsed may be written back, because the trees of every program that a text is parsed to
are well-formed (`wellFormed_of_mem_statements`).

What a tree needs in its written form may be more than what its own text has cost. A text can do
without the parentheses that the written form puts around every application, and parentheses nest.
So an expression that was parsed with some limit is parsed again from its written form with the
same limit exactly if the limit allows what its tree needs (`parse_render_of_parse`), and the
limit may fall short of that (`parse_render_minus`).
-/

namespace MonkeyLang

/-- Well-formed expressions are written as phrases that cost what they need. -/
theorem Expr.WellFormed.exists_phrase {e : Expr} (he : e.WellFormed) :
    ∃ p : Phrase, (Cursor.start e.render).pending = p.tokens ∧ p.TighterThan .lowest ∧
      p.tree = e ∧ p.cost = e.need := by
  obtain ⟨p, there, hp, htree, hcost, ht⟩ := he.phraseAt 0 (leaves_nil _)
  rw [List.append_nil, Cursor.pending_nil, List.append_nil] at ht
  exact ⟨p, ht, hp.tighterThan.lowest, htree, hcost⟩

/-- **An expression that was parsed is parsed again from its written form**, with the same limit
and to the same program, exactly if the limit allows what the tree needs; with a limit that was
enough for the text but is not for the tree, nothing is read, and the one error is that limit. -/
theorem parse_render_of_parse {config : Config} {source : String} {e : Expr}
    (h : parse config source = ⟨⟨[.expressionStatement e]⟩, []⟩) :
    (parse config (parse config source).program.render = parse config source ↔
        e.need ≤ config.maxDepth) ∧
      (config.maxDepth < e.need →
        (parse config (parse config source).program.render).program = ⟨[]⟩ ∧
          ∃ span, (parse config (parse config source).program.render).errors =
            [⟨.nestingTooDeep config.maxDepth, span⟩]) := by
  have he : e.WellFormed := by
    have read : .expressionStatement e ∈ (parse config source).program.statements := by
      rw [h]
      exact List.mem_singleton_self _
    exact wellFormed_of_mem_statements read
  obtain ⟨p, ht, hp, rfl, hcost⟩ := he.exists_phrase
  have written : (parse config source).program.render = p.tree.render := by
    rw [h]
    exact String.empty_append
  rw [written, h, ← hcost]
  have refused := @parse_of_tooDeep config _ _ ht hp
  refine ⟨⟨fun same ↦ ?_, parse_of_phrase ht hp⟩, refused⟩
  by_contra short
  have clean := (refused (not_le.1 short)).1
  rw [same] at clean
  cases clean

/-- A limit of nine is enough for a text and for its tree. One of seven is enough for the text
alone, which has parentheses around one application out of three. -/
theorem parse_render_of_parse_sum :
    let e : Expr := .binary .plus (.integer 1 "1")
      (.unary .minus (.binary .asterisk (.integer 2 "2") (.identifier "a")))
    parse ⟨9⟩ "1 + -(2 * a)" = ⟨⟨[.expressionStatement e]⟩, []⟩ ∧
      parse ⟨9⟩ (parse ⟨9⟩ "1 + -(2 * a)").program.render = parse ⟨9⟩ "1 + -(2 * a)" ∧
      parse ⟨7⟩ "1 + -(2 * a)" = ⟨⟨[.expressionStatement e]⟩, []⟩ ∧
      (parse ⟨7⟩ (parse ⟨7⟩ "1 + -(2 * a)").program.render).program = ⟨[]⟩ := by
  intro e
  have enough : parse ⟨9⟩ "1 + -(2 * a)" = ⟨⟨[.expressionStatement e]⟩, []⟩ := by decide +kernel
  have short : parse ⟨7⟩ "1 + -(2 * a)" = ⟨⟨[.expressionStatement e]⟩, []⟩ := by decide +kernel
  exact ⟨enough, (parse_render_of_parse enough).1.2 (by decide), short,
    ((parse_render_of_parse short).2 (by decide)).1⟩

/-- A limit of two is enough for a sign and its operand, and not for the pair of parentheses that
is written around them. -/
theorem parse_render_minus :
    parse ⟨2⟩ "-a" = ⟨⟨[.expressionStatement (.unary .minus (.identifier "a"))]⟩, []⟩ ∧
      parse ⟨2⟩ (parse ⟨2⟩ "-a").program.render = ⟨⟨[]⟩, [⟨.nestingTooDeep 2, ⟨2, 3⟩⟩]⟩ := by
  constructor <;> decide +kernel

end MonkeyLang
