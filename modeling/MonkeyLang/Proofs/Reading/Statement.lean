import MonkeyLang.Parse.Statement
import MonkeyLang.Proofs.Reading.Expression

/-!
# What reading a statement reads

The statement reader against the grammar. A clause is read to its end if what stands behind it
cannot belong to it (`readStatement_append`), and is refused on the nesting limit if its
expression costs too much (`readStatement_tooDeep`); whatever is read is a clause that ends there
(`exists_clause_of_readStatement`).

Both directions go through the opening: reading a statement is reading its expression behind the
opening's tokens, and the opening is determined by the first of them.
-/

namespace MonkeyLang

/-! ### First tokens -/

/-- The kinds of token that expressions start with. -/
def TokenKind.startsExpression : TokenKind → Bool
  | identifier | integer | keyword .trueWord | keyword .falseWord | punctuation .lparen => true
  | operator op => op.isUnary
  | _ => false

/-- Expressions start with tokens of these kinds. -/
theorem TokenKind.startsExpression_iff {k : TokenKind} :
    k.startsExpression = true ↔
      k ∈ [identifier, integer, keyword .trueWord, keyword .falseWord, operator .minus,
        operator .bang, punctuation .lparen] := by
  have table : ∀ k ∈ all, k.startsExpression = true ↔
      k ∈ [identifier, integer, keyword .trueWord, keyword .falseWord, operator .minus,
        operator .bang, punctuation .lparen] := by decide +kernel
  exact table k (mem_all k)

/-- A phrase starts with a token that expressions start with. -/
theorem Phrase.TighterThan.exists_first {p : Phrase} {floor : Precedence}
    (h : p.TighterThan floor) :
    ∃ t more, p.tokens = t :: more ∧ t.kind.startsExpression = true := by
  induction p generalizing floor with
  | identifier t =>
    have hk : t.kind = .identifier := h
    exact ⟨t, [], rfl, by rw [hk]; rfl⟩
  | integer t => exact ⟨t, [], rfl, by rw [h.1]; rfl⟩
  | boolean value t =>
    have hk : t.kind = .keyword (if value then .trueWord else .falseWord) := h
    exact ⟨t, [], rfl, by rw [hk]; cases value <;> rfl⟩
  | unary op sign operand => exact ⟨sign, operand.tokens, rfl, by rw [h.1]; exact h.2.1⟩
  | parens opening inner closing =>
    exact ⟨opening, inner.tokens ++ [closing], rfl, by rw [h.1]; rfl⟩
  | binary op left sign right ihl =>
    obtain ⟨t, more, ht, hk⟩ := ihl h.2.2.1
    exact ⟨t, more ++ sign :: right.tokens, by rw [tokens, ht, List.cons_append], hk⟩

namespace Clause

/-- What may stand behind a clause that ends before it: anything behind a semicolon, and else
neither a semicolon nor an operator that extends its expression. -/
def EndsBefore (c : Clause) (rest : List Token) : Prop :=
  c.semicolon? = none →
    binaryAt? .lowest rest = none ∧ ∀ t ∈ rest.head?, t.kind ≠ .punctuation .semicolon

/-- The last token of a clause. -/
def last (c : Clause) : Token := c.semicolon?.getD c.value.last

/-- The clause as it is read in front of `rest`. -/
def parsed (c : Clause) (rest : List Token) : Parsed Statement := ⟨c.tree, c.last, rest⟩

/-- A clause accounts for the statement that was read off the tokens if it stands in front of
them, ends where reading did, and costs no more than the levels that there were. -/
structure AccountsFor (c : Clause) (levels : Nat) (tokens : List Token) (e : Parsed Statement) :
    Prop where
  derived : c.IsDerived
  cost_le : c.value.cost ≤ levels
  ends : c.EndsBefore e.rest
  tokens_eq : c.tokens ++ e.rest = tokens
  parsed_eq : c.parsed e.rest = e

/-- The expression of a clause ends before its semicolon or before what follows the clause. -/
theorem EndsBefore.binaryAt?_eq_none {c : Clause} {rest : List Token} (h : c.EndsBefore rest)
    (hc : c.IsDerived) : binaryAt? .lowest (c.semicolon?.toList ++ rest) = none := by
  rcases hs : c.semicolon? with - | t
  · exact (h hs).1
  · have hk := hc.semicolon t hs
    exact binaryAt?_cons_of_kind fun op ↦ by simp [hk]

/-- The tokens of a clause with what follows it, its opening and its expression set apart. -/
theorem tokens_append (c : Clause) (rest : List Token) :
    c.tokens ++ rest = c.opening.tokens ++ (c.value.tokens ++ (c.semicolon?.toList ++ rest)) := by
  simp [Clause.tokens]

/-- Behind the opening of a clause stands a token that expressions start with. -/
theorem IsDerived.exists_first_value {c : Clause} (hc : c.IsDerived) (rest : List Token) :
    ∃ t more, c.value.tokens ++ (c.semicolon?.toList ++ rest) = t :: more ∧
      t.kind.startsExpression = true := by
  obtain ⟨t, more, ht, hk⟩ := (Nonterminal.expression_derives_iff.1 hc.value).exists_first
  exact ⟨t, more ++ (c.semicolon?.toList ++ rest), by rw [ht, List.cons_append], hk⟩

end Clause

namespace Frame

variable (f : Frame)

/-! ### The semicolon behind an expression -/

/-- An expression is read with the semicolon behind it, if one belongs to it. -/
theorem readValue_append {c : Clause} (hc : c.IsDerived) {rest : List Token}
    (hr : c.EndsBefore rest) (hl : c.value.cost ≤ f.config.maxDepth) :
    f.readValue (c.value.tokens ++ (c.semicolon?.toList ++ rest)) =
      .ok ⟨c.value.tree, c.last, rest⟩ := by
  have hp := Nonterminal.expression_derives_iff.1 hc.value
  have stops := hr.binaryAt?_eq_none hc
  rw [readValue, f.readExpression_append hp (hp.binaryAt?_strength stops) hl,
    f.extend_of_binaryAt?_eq_none stops]
  rcases hs : c.semicolon? with - | t
  · have ends := (hr hs).2
    rcases rest with - | ⟨u, us⟩
    · simp [Except.map, Parsed.withSemicolon, Phrase.parsed, Clause.last, hs]
    · have hk : u.kind ≠ .punctuation .semicolon := ends u rfl
      simp [Except.map, Parsed.withSemicolon, Phrase.parsed, Clause.last, hs, hk]
  · have hk := hc.semicolon t hs
    simp [Except.map, Parsed.withSemicolon, Phrase.parsed, Clause.last, hs, hk]

/-- Whatever is read as the value of a statement makes a clause with every opening. -/
theorem exists_clause_of_readValue {tokens : List Token} {e : Parsed Expr}
    (h : f.readValue tokens = .ok e) {o : Opening} (ho : o.IsDerived) :
    ∃ c : Clause,
      c.AccountsFor f.config.maxDepth (o.tokens ++ tokens) (e.map o.statement) := by
  obtain ⟨x, hx, rfl⟩ := Reading.map_eq_ok_iff.1 h
  obtain ⟨p, ⟨hp, hl, ht, hv⟩, hs⟩ := (f.exists_phrase_of_readExpression _).1 _ _ _ hx
  obtain ⟨value, last, rest⟩ := x
  obtain ⟨rfl, rfl⟩ : p.tree = value ∧ p.last = last :=
    ⟨congrArg Parsed.value hv, congrArg Parsed.last hv⟩
  have hd := Nonterminal.expression_derives_iff.2 hp
  have without : (∀ t ∈ rest.head?, t.kind ≠ .punctuation .semicolon) →
      (⟨p.tree, p.last, rest⟩ : Parsed Expr).withSemicolon = ⟨p.tree, p.last, rest⟩ →
        ∃ c : Clause, c.AccountsFor f.config.maxDepth (o.tokens ++ tokens)
          ((⟨p.tree, p.last, rest⟩ : Parsed Expr).withSemicolon.map o.statement) := by
    intro hn same
    rw [same]
    refine ⟨⟨o, p, none⟩, ⟨ho, hd, by simp⟩, hl, fun _ ↦ ⟨hs, hn⟩, ?_, rfl⟩
    rw [← ht]
    simp [Clause.tokens, Parsed.map]
  rcases rest with - | ⟨t, rest⟩
  · exact without (by simp) rfl
  by_cases hk : t.kind = .punctuation .semicolon
  · refine ⟨⟨o, p, some t⟩, ⟨ho, hd, by simp [hk]⟩, hl, ?_, ?_, ?_⟩
    · intro hn
      cases hn
    · rw [← ht]
      simp [Clause.tokens, Parsed.map, Parsed.withSemicolon, hk]
    · simp [Clause.parsed, Clause.tree, Clause.last, Parsed.map, Parsed.withSemicolon, hk]
  · exact without (by simp [hk]) (by simp [Parsed.withSemicolon, hk])

/-! ### Openings -/

/-- Reading a statement is reading its expression behind the opening. -/
theorem readStatement_opening {o : Opening} (ho : o.IsDerived) {tokens : List Token}
    (ht : ∃ t more, tokens = t :: more ∧ t.kind.startsExpression = true) :
    ∃ first more, o.tokens ++ tokens = first :: more ∧
      f.readStatement first more = (f.readValue tokens).map (.map o.statement) := by
  rcases o with ⟨word, name, sign⟩ | word | -
  · obtain ⟨hw, hn, hs⟩ := ho
    refine ⟨word, name :: sign :: tokens, rfl, ?_⟩
    rw [readStatement, hw]
    show f.readLet word (name :: sign :: tokens) = _
    simp only [readLet, f.expect_cons hn, f.expect_cons hs]
    rfl
  · have hw : word.kind = .keyword .returnWord := ho
    exact ⟨word, tokens, rfl, by rw [readStatement, hw]; rfl⟩
  · obtain ⟨t, more, rfl, hk⟩ := ht
    refine ⟨t, more, rfl, ?_⟩
    rw [readStatement]
    split
    · rename_i hw
      rw [hw] at hk
      cases hk
    · rename_i hw
      rw [hw] at hk
      cases hk
    · rfl

/-- A statement that was read has an opening, and behind it the expression that was read. -/
theorem exists_opening_of_readStatement {first : Token} {more : List Token}
    {e : Parsed Statement} (h : f.readStatement first more = .ok e) :
    ∃ (o : Opening) (tokens : List Token) (x : Parsed Expr), o.IsDerived ∧
      o.tokens ++ tokens = first :: more ∧ f.readValue tokens = .ok x ∧ x.map o.statement = e := by
  rw [readStatement] at h
  split at h
  · rename_i hw
    rw [readLet] at h
    rcases hname : f.expect .identifier first more with _ | name
    · rw [hname] at h
      cases h
    rw [hname] at h
    simp only at h
    rcases hsign : f.expect (.operator .assign) name.last name.rest with _ | sign
    · rw [hsign] at h
      cases h
    rw [hsign] at h
    simp only at h
    obtain ⟨x, hx, he⟩ := Reading.map_eq_ok_iff.1 h
    obtain ⟨t, behind, rfl, ht, rfl⟩ := (f.expect_eq_ok_iff (by decide)).1 hname
    obtain ⟨u, tokens, rfl, hu, rfl⟩ := (f.expect_eq_ok_iff (by decide)).1 hsign
    exact ⟨.binding first t u, tokens, x, ⟨hw, ht, hu⟩, rfl, hx, he⟩
  · rename_i hw
    obtain ⟨x, hx, he⟩ := Reading.map_eq_ok_iff.1 h
    exact ⟨.result first, more, x, hw, rfl, hx, he⟩
  · obtain ⟨x, hx, he⟩ := Reading.map_eq_ok_iff.1 h
    exact ⟨.bare, first :: more, x, trivial, rfl, hx, he⟩

/-! ### Statements -/

/-- **A clause is read to its end**, if it costs no more than the limit allows and what stands
behind it cannot belong to it. -/
theorem readStatement_append {c : Clause} (hc : c.IsDerived) {rest : List Token}
    (hr : c.EndsBefore rest) (hl : c.value.cost ≤ f.config.maxDepth) :
    ∃ first more, c.tokens ++ rest = first :: more ∧
      f.readStatement first more = .ok (c.parsed rest) := by
  obtain ⟨first, more, ht, h⟩ := f.readStatement_opening hc.opening (hc.exists_first_value rest)
  rw [f.readValue_append hc hr hl] at h
  exact ⟨first, more, by rw [c.tokens_append, ht], h⟩

/-- **A clause is refused on the nesting limit** if it costs more than the limit allows. -/
theorem readStatement_tooDeep {c : Clause} (hc : c.IsDerived) (rest : List Token)
    (hl : f.config.maxDepth < c.value.cost) :
    ∃ first more e, c.tokens ++ rest = first :: more ∧ f.readStatement first more = .error e ∧
      e.error.cause = .nestingTooDeep f.config.maxDepth := by
  obtain ⟨first, more, ht, h⟩ := f.readStatement_opening hc.opening (hc.exists_first_value rest)
  obtain ⟨e, he, hcause⟩ := @readExpression_tooDeep f _ _ (c.semicolon?.toList ++ rest) _
    (Nonterminal.expression_derives_iff.1 hc.value) hl
  rw [readValue, he] at h
  exact ⟨first, more, e, by rw [c.tokens_append, ht], h, hcause⟩

/-- **Whatever is read is a clause** that ends where reading did. -/
theorem exists_clause_of_readStatement {first : Token} {more : List Token} {e : Parsed Statement}
    (h : f.readStatement first more = .ok e) :
    ∃ c : Clause, c.AccountsFor f.config.maxDepth (first :: more) e := by
  obtain ⟨o, tokens, x, ho, ht, hx, rfl⟩ := f.exists_opening_of_readStatement h
  obtain ⟨c, hc⟩ := f.exists_clause_of_readValue hx ho
  exact ⟨c, ht ▸ hc⟩

end Frame

end MonkeyLang
