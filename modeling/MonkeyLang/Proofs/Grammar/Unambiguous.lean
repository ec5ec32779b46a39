import MonkeyLang.Proofs.Grammar.Trace
import MonkeyLang.Proofs.Reading.Program

/-!
# The grammar is unambiguous where minus signs join

Tokens that derive a program have exactly one derivation in which minus signs join
(`MinusJoins.eq_of_derivesProgram`). That reading is a function gives half of it: two phrases at
the front of the same tokens have one tree and leave the same rest (`tree_eq_of_append`). The
other half is that tree and tokens together determine the phrase (`eq_of_tokens_eq`). Parentheses
are what a tree forgets; an enclosed phrase and one that starts with an enclosed operand are told
apart by what is left behind the first operand, and the places of the operators by the tokens
that leave a trace.
-/

namespace MonkeyLang

/-- Lists that agree, each with a token that leaves a trace at a marked place, have their places
in common if as many tokens in front of them leave a trace. -/
theorem eq_of_traces_eq {ts us vs ws : List Token} {t u : Token} (ht : t.kind.leavesTrace = true)
    (hu : u.kind.leavesTrace = true) (hn : traces ts = traces us)
    (h : ts ++ t :: vs = us ++ u :: ws) : ts = us ∧ t = u ∧ vs = ws := by
  induction ts generalizing us with
  | nil =>
    rcases us with - | ⟨x, us⟩
    · obtain ⟨rfl, rfl⟩ := List.cons.inj h
      exact ⟨rfl, rfl, rfl⟩
    · obtain ⟨rfl, -⟩ := List.cons.inj h
      rw [traces_cons, if_pos ht] at hn
      cases hn
  | cons x ts ih =>
    rcases us with - | ⟨y, us⟩
    · obtain ⟨rfl, -⟩ := List.cons.inj h
      rw [traces_cons, if_pos hu] at hn
      cases hn
    · obtain ⟨rfl, tails⟩ := List.cons.inj h
      rw [traces_cons, traces_cons, Nat.add_right_cancel_iff] at hn
      obtain ⟨rfl, rfl, rfl⟩ := ih hn tails
      exact ⟨rfl, rfl, rfl⟩

namespace Phrase

/-- Phrases at the front of the same tokens have one tree, and stop at one place. -/
theorem tree_eq_of_append {p q : Phrase} {floor : Precedence} {rest rest' : List Token}
    (hp : p.TighterThan floor) (hq : q.TighterThan floor) (hr : binaryAt? floor rest = none)
    (hr' : binaryAt? floor rest' = none) (h : p.tokens ++ rest = q.tokens ++ rest') :
    p.tree = q.tree ∧ rest = rest' := by
  let f : Frame := ⟨⟨0⟩, 0⟩
  have read : ∀ {o : Phrase} {behind : List Token}, o.TighterThan floor →
      binaryAt? floor behind = none → o.cost ≤ max p.cost q.cost →
        f.readExpression (max p.cost q.cost) floor (o.tokens ++ behind) =
          .ok (o.parsed behind) := by
    intro o behind ho hb hl
    rw [f.readExpression_append ho (ho.binaryAt?_strength hb) hl,
      f.extend_of_binaryAt?_eq_none hb]
  have same := read hp hr (Nat.le_max_left _ _)
  rw [h, read hq hr' (Nat.le_max_right _ _)] at same
  have parsed := Except.ok.inj same
  exact ⟨(congrArg Parsed.value parsed).symm, (congrArg Parsed.rest parsed).symm⟩

/-- Every phrase starts with an operand. -/
theorem TighterThan.exists_lead {p : Phrase} {floor : Precedence} (h : p.TighterThan floor) :
    ∃ (o : Phrase) (more : List Token), o.TighterThan .unary ∧ p.tokens = o.tokens ++ more := by
  induction p generalizing floor with
  | binary op left sign right ihl =>
    obtain ⟨o, more, ho, ht⟩ := ihl h.2.2.1
    exact ⟨o, more ++ sign :: right.tokens, ho, by rw [tokens, ht, List.append_assoc]⟩
  | identifier t => exact ⟨.identifier t, [], h, (List.append_nil _).symm⟩
  | integer t => exact ⟨.integer t, [], h, (List.append_nil _).symm⟩
  | boolean value t => exact ⟨.boolean value t, [], h, (List.append_nil _).symm⟩
  | unary op sign operand => exact ⟨.unary op sign operand, [], h, (List.append_nil _).symm⟩
  | parens opening inner closing =>
    exact ⟨.parens opening inner closing, [], h, (List.append_nil _).symm⟩

/-- A binary operator application is not an operand: its own first operand ends before it. -/
theorem tokens_ne_binary {o : Phrase} (ho : o.TighterThan .unary) {op : Operator}
    {left right : Phrase} {sign : Token} {floor : Precedence}
    (hq : (binary op left sign right).TighterThan floor) :
    o.tokens ≠ (binary op left sign right).tokens := by
  intro h
  obtain ⟨o', more, ho', ht⟩ := hq.2.2.1.exists_lead
  rw [tokens, ht, List.append_assoc, ← List.append_nil o.tokens] at h
  have := (tree_eq_of_append ho ho' rfl (binaryAt?_unary _) h).2
  simp at this

/-- What has the tokens of an enclosed phrase is enclosed itself. -/
theorem exists_parens_of_tokens_eq {p inner : Phrase} {opening closing : Token}
    (hp : p.TighterThan .lowest) (hq : (parens opening inner closing).TighterThan .lowest)
    (h : p.tokens = (parens opening inner closing).tokens) :
    ∃ x, p = parens opening x closing ∧ x.tokens = inner.tokens := by
  have first : p.tokens.head? = some opening := by rw [h]; rfl
  have longer : 1 < p.tokens.length := by
    rw [h]
    simp [tokens]
  have ho : opening.kind = .punctuation .lparen := hq.1
  cases p with
  | identifier | integer | boolean => simp [tokens] at longer
  | unary op sign operand =>
    obtain rfl : sign = opening := by simpa [tokens] using first
    exact absurd (ho.symm.trans hp.1) (by simp)
  | binary op left sign right => exact absurd h.symm (tokens_ne_binary hq hp)
  | parens opening' x closing' =>
    obtain ⟨rfl, behind⟩ := List.cons.inj h
    obtain ⟨hx, hc⟩ := List.append_inj' behind rfl
    obtain ⟨rfl, -⟩ := List.cons.inj hc
    exact ⟨x, rfl, hx⟩

/-- **The tokens of a phrase determine it.** -/
theorem eq_of_tokens_eq {p q : Phrase} (hp : p.TighterThan .lowest) (hq : q.TighterThan .lowest)
    (h : p.tokens = q.tokens) : p = q := by
  have htree : p.tree = q.tree := by
    rw [← List.append_nil p.tokens, ← List.append_nil q.tokens] at h
    exact (tree_eq_of_append hp hq rfl rfl h).1
  induction p generalizing q with
  -- Parentheses leave no trace in the tree, so this case goes by the tokens alone. In all others
  -- the tree gives the other phrase the same shape, or else it is enclosed and this one is not.
  | parens opening inner closing ih =>
    obtain ⟨x, rfl, hx⟩ := exists_parens_of_tokens_eq hq hp h.symm
    rw [ih hp.2.1 hq.2.1 hx.symm htree]
  | identifier t =>
    cases q with
    | identifier u => exact congrArg identifier (List.cons.inj h).1
    | parens => exact absurd (exists_parens_of_tokens_eq hp hq h) (by simp)
    | _ => cases htree
  | integer t =>
    cases q with
    | integer u => exact congrArg integer (List.cons.inj h).1
    | parens => exact absurd (exists_parens_of_tokens_eq hp hq h) (by simp)
    | _ => cases htree
  | boolean value t =>
    cases q with
    | boolean value' u =>
      obtain ⟨rfl, -⟩ := Expr.boolean.inj htree
      exact congrArg (boolean value) (List.cons.inj h).1
    | parens => exact absurd (exists_parens_of_tokens_eq hp hq h) (by simp)
    | _ => cases htree
  | unary op sign operand ih =>
    cases q with
    | unary op' sign' operand' =>
      obtain ⟨rfl, hx⟩ := Expr.unary.inj htree
      obtain ⟨rfl, ht⟩ := List.cons.inj h
      rw [ih hp.2.2.of_unary hq.2.2.of_unary ht hx]
    | parens => exact absurd (exists_parens_of_tokens_eq hp hq h) (by simp)
    | _ => cases htree
  | binary op left sign right ihl ihr =>
    cases q with
    | binary op' left' sign' right' =>
      obtain ⟨rfl, hl, hr⟩ := Expr.binary.inj htree
      obtain ⟨⟨hs, -⟩, -, hpl, hpr⟩ := hp
      obtain ⟨⟨hs', -⟩, -, hql, hqr⟩ := hq
      -- The operators stand behind equally many tokens that leave a trace.
      have places : traces left.tokens = traces left'.tokens := by
        rw [hpl.traces_tokens, hql.traces_tokens, hl]
      obtain ⟨htl, rfl, htr⟩ := eq_of_traces_eq (by rw [hs]; rfl) (by rw [hs']; rfl) places h
      rw [ihl hpl.lowest hql.lowest htl hl, ihr hpr.lowest hqr.lowest htr hr]
    | parens => exact absurd (exists_parens_of_tokens_eq hp hq h) (by simp)
    | _ => cases htree

/-- **Phrases at the front of the same tokens are the same**, if both stop at the same floor. -/
theorem eq_of_append {p q : Phrase} {floor : Precedence} {rest rest' : List Token}
    (hp : p.TighterThan floor) (hq : q.TighterThan floor) (hr : binaryAt? floor rest = none)
    (hr' : binaryAt? floor rest' = none) (h : p.tokens ++ rest = q.tokens ++ rest') :
    p = q ∧ rest = rest' := by
  obtain ⟨-, rfl⟩ := tree_eq_of_append hp hq hr hr' h
  exact ⟨eq_of_tokens_eq hp.lowest hq.lowest (List.append_cancel_right h), rfl⟩

end Phrase

/-- The openings in front of expressions are determined by the tokens. -/
theorem Opening.eq_of_append {o o' : Opening} {ts ts' : List Token} (ho : o.IsDerived)
    (ho' : o'.IsDerived) (ht : ∃ t more, ts = t :: more ∧ t.kind.startsExpression = true)
    (ht' : ∃ t more, ts' = t :: more ∧ t.kind.startsExpression = true)
    (h : o.tokens ++ ts = o'.tokens ++ ts') : o = o' ∧ ts = ts' := by
  have apart : ∀ {word : Token} {vs us : List Token} {k : Keyword},
      word.kind = .keyword k → k.startsStatement = true →
        (∃ t more, us = t :: more ∧ t.kind.startsExpression = true) → word :: vs ≠ us := by
    rintro word vs _ k hw hk ⟨t, more, rfl, hs⟩ heq
    obtain ⟨rfl, -⟩ := List.cons.inj heq
    rw [hw] at hs
    revert hs hk
    cases k <;> decide
  rcases o with ⟨word, name, sign⟩ | word | - <;> rcases o' with ⟨word', name', sign'⟩ | word' | -
  · simp only [tokens, List.cons_append, List.nil_append, List.cons.injEq] at h
    obtain ⟨rfl, rfl, rfl, behind⟩ := h
    exact ⟨rfl, behind⟩
  · obtain ⟨rfl, -⟩ := List.cons.inj h
    exact absurd (ho.1.symm.trans ho') (by decide)
  · exact absurd h (apart ho.1 (by decide) ht')
  · obtain ⟨rfl, -⟩ := List.cons.inj h
    exact absurd (ho.symm.trans ho'.1) (by decide)
  · obtain ⟨rfl, behind⟩ := List.cons.inj h
    exact ⟨rfl, behind⟩
  · exact absurd h (apart ho (by decide) ht')
  · exact absurd h.symm (apart ho'.1 (by decide) ht)
  · exact absurd h.symm (apart ho' (by decide) ht)
  · exact ⟨rfl, h⟩

/-- Clauses at the front of the same tokens are the same, if both end before the rest. -/
theorem Clause.eq_of_append {c d : Clause} {rest rest' : List Token} (hc : c.IsDerived)
    (hd : d.IsDerived) (hr : c.EndsBefore rest) (hr' : d.EndsBefore rest')
    (h : c.tokens ++ rest = d.tokens ++ rest') : c = d ∧ rest = rest' := by
  rw [tokens_append, tokens_append] at h
  obtain ⟨ho, hv⟩ := Opening.eq_of_append hc.opening hd.opening (hc.exists_first_value rest)
    (hd.exists_first_value rest') h
  obtain ⟨hp, hs⟩ := Phrase.eq_of_append (Nonterminal.expression_derives_iff.1 hc.value)
    (Nonterminal.expression_derives_iff.1 hd.value) (hr.binaryAt?_eq_none hc)
    (hr'.binaryAt?_eq_none hd) hv
  obtain ⟨o, p, s⟩ := c
  obtain ⟨o', p', s'⟩ := d
  obtain ⟨rfl, rfl⟩ : o = o' ∧ p = p' := ⟨ho, hp⟩
  rcases s with - | t <;> rcases s' with - | t'
  · exact ⟨rfl, hs⟩
  · obtain rfl : rest = t' :: rest' := hs
    exact absurd (hd.semicolon t' rfl) ((hr rfl).2 t' rfl)
  · obtain rfl : t :: rest = rest' := hs
    exact absurd (hc.semicolon t rfl) ((hr' rfl).2 t rfl)
  · obtain ⟨rfl, rfl⟩ := List.cons.inj hs
    exact ⟨rfl, rfl⟩

/-- **A program has at most one derivation in which minus signs join.** -/
theorem MinusJoins.eq_of_derivesProgram {ts : List Token} {cs ds : List Clause}
    (hm : MinusJoins cs) (hm' : MinusJoins ds) (h : DerivesProgram ts cs)
    (h' : DerivesProgram ts ds) : cs = ds := by
  have nonempty : ∀ {c : Clause} {us : List Token}, c.IsDerived → c.tokens ++ us ≠ [] := by
    intro c us hc hnil
    obtain ⟨t, more, ht, -⟩ := hc.exists_first
    rw [ht] at hnil
    cases hnil
  obtain ⟨hcs, rfl⟩ := h
  obtain ⟨hds, ht⟩ := h'
  induction cs generalizing ds with
  | nil =>
    rcases ds with - | ⟨d, ds⟩
    · rfl
    · rw [List.flatMap_cons] at ht
      exact absurd ht (nonempty (hds d List.mem_cons_self))
  | cons c cs ih =>
    rcases ds with - | ⟨d, ds⟩
    · rw [List.flatMap_cons] at ht
      exact absurd ht.symm (nonempty (hcs c List.mem_cons_self))
    · rw [List.forall_mem_cons] at hcs hds
      rw [List.flatMap_cons, List.flatMap_cons] at ht
      obtain ⟨rfl, behind⟩ := Clause.eq_of_append hds.1 hcs.1 (hm'.endsBefore hds.2)
        (hm.endsBefore hcs.2) ht
      exact congrArg (d :: ·) (ih hm.tail hm'.tail hcs.2 hds.2 behind)

end MonkeyLang
