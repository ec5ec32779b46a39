import MonkeyLang.Proofs.Grammar.Strength

/-!
# A minus can always join

Where a statement without a semicolon is followed by one that starts with a minus, the two can be
derived as one statement instead: the minus joins them. On phrases this is `exists_join`, which
puts the operands behind the minus one after the other into the places that their operators'
strengths give them (`exists_insert`, `exists_attach`). So every derivation can be turned into
one of the same tokens in which minus signs join (`exists_minusJoins`).
-/

namespace MonkeyLang

/-- No atom starts with a minus. -/
theorem Nonterminal.Derives.not_minus_first {p : Phrase} (h : Nonterminal.Derives .atom p) :
    ¬ ∃ t ∈ p.tokens.head?, t.kind = .operator .minus := by
  rintro ⟨t, ht, hk⟩
  cases h with
  | identifier h | integer h _ | trueWord h | falseWord h | parens h _ _ =>
    obtain rfl := Option.some.inj ht
    exact absurd (h.symm.trans hk) (by decide)

namespace Phrase

/-- The tokens of a phrase that stand between two operands. -/
def binarySigns : Phrase → List Token
  | binary _ left sign right => left.binarySigns ++ sign :: right.binarySigns
  | unary _ _ operand => operand.binarySigns
  | parens _ inner _ => inner.binarySigns
  | _ => []

/-- An operator at most as strong as a phrase takes the whole phrase as its left operand. -/
theorem TighterThan.binary {p operand : Phrase} {floor : Precedence} (hp : p.TighterThan floor)
    {op : Operator} {sign : Token} (hs : sign.kind = .operator op) (hb : op.isBinary = true)
    (hf : floor < op.precedence) (hx : operand.TighterThan .unary)
    (hw : op.precedence ≤ p.strength) : (Phrase.binary op p sign operand).TighterThan floor := by
  have above := Operator.lowest_lt_precedence_of_isBinary hb
  exact ⟨⟨hs, hb⟩, hf, hp.of_lt_strength ((Precedence.lower_lt_iff above).2 hw), hx.of_unary⟩

/-- An operand behind an operator can be joined to a phrase: it goes behind the right operands
that bind looser than the operator. -/
theorem exists_insert {p operand : Phrase} {floor : Precedence} (hp : p.TighterThan floor)
    {op : Operator} {sign : Token} (hs : sign.kind = .operator op) (hb : op.isBinary = true)
    (hf : floor < op.precedence) (hx : operand.TighterThan .unary) :
    ∃ m : Phrase, m.TighterThan floor ∧ m.tokens = p.tokens ++ sign :: operand.tokens ∧
      sign :: p.binarySigns ⊆ m.binarySigns := by
  have operand_le : op.precedence ≤ .unary :=
    (Operator.precedence_le_product hb).trans (by decide)
  have between : ∀ q : Phrase, sign :: q.binarySigns ⊆ (binary op q sign operand).binarySigns :=
    fun q ↦ List.cons_subset.2
      ⟨List.mem_append_right _ List.mem_cons_self, List.subset_append_left _ _⟩
  induction p generalizing floor with
  | binary op' left sign' right ihl ihr =>
    rcases le_or_gt op.precedence op'.precedence with hw | hw
    · exact ⟨_, hp.binary hs hb hf hx hw, rfl, between _⟩
    -- The operator binds tighter than the outermost one, so it belongs to its right operand.
    · obtain ⟨hs', hf', hl, hr⟩ := hp
      obtain ⟨m, hm, ht, signs⟩ := ihr hr hw
      obtain ⟨here, kept⟩ := List.cons_subset.1 signs
      refine ⟨.binary op' left sign' m, ⟨hs', hf', hl, hm⟩, ?_, List.cons_subset.2 ⟨?_, ?_⟩⟩
      · rw [tokens, ht, tokens, List.append_assoc, List.cons_append]
      · exact List.mem_append_right _ (List.mem_cons_of_mem _ here)
      · exact List.append_subset.2 ⟨List.subset_append_left _ _,
          List.subset_append_of_subset_right _ (List.cons_subset_cons _ kept)⟩
  | _ => exact ⟨_, hp.binary hs hb hf hx operand_le, rfl, between _⟩

/-- Any phrase behind an operator can be joined to any other. -/
theorem exists_attach {q : Phrase} {floor : Precedence} (hq : q.TighterThan floor) {p : Phrase}
    (hp : p.TighterThan .lowest) {op : Operator} {sign : Token} (hs : sign.kind = .operator op)
    (hb : op.isBinary = true) :
    ∃ m : Phrase, m.TighterThan .lowest ∧ m.tokens = p.tokens ++ sign :: q.tokens ∧
      sign :: p.binarySigns ⊆ m.binarySigns := by
  have above := Operator.lowest_lt_precedence_of_isBinary hb
  induction q generalizing floor p op sign with
  | binary op' left sign' right ihl ihr =>
    obtain ⟨⟨hs', hb'⟩, -, hl, hr⟩ := hq
    obtain ⟨m, hm, ht, signs⟩ := ihl hl hp hs hb above
    obtain ⟨m', hm', ht', signs'⟩ :=
      ihr hr hm hs' hb' (Operator.lowest_lt_precedence_of_isBinary hb')
    refine ⟨m', hm', ?_, List.Subset.trans signs (List.cons_subset.1 signs').2⟩
    rw [ht', ht, tokens, List.append_assoc, List.cons_append]
  | _ => exact exists_insert hp hs hb above hq

/-- **A phrase that starts with a minus can be joined to the phrase in front of it**, and the minus
then stands between two operands. -/
theorem exists_join {p q : Phrase} {floor : Precedence} (hp : p.TighterThan .lowest)
    (hq : q.TighterThan floor) {t : Token} (ht : t ∈ q.tokens.head?)
    (hk : t.kind = .operator .minus) :
    ∃ m : Phrase, m.TighterThan .lowest ∧ m.tokens = p.tokens ++ q.tokens ∧ t ∈ m.binarySigns := by
  have hminus : ∃ t ∈ q.tokens.head?, t.kind = .operator .minus := ⟨t, ht, hk⟩
  induction q generalizing floor with
  | unary op sign operand =>
    obtain rfl : sign = t := by simpa [tokens] using ht
    obtain ⟨m, hm, tokens_eq, signs⟩ := exists_insert hp hk (by decide) (by decide) hq.2.2
    exact ⟨m, hm, tokens_eq, signs List.mem_cons_self⟩
  | binary op left sign right ihl =>
    obtain ⟨⟨hs, hb⟩, -, hl, hr⟩ := hq
    have hfirst : (Phrase.binary op left sign right).tokens.head? = left.tokens.head? := by
      rw [tokens, List.head?_append_of_ne_nil _ left.tokens_ne_nil]
    rw [hfirst] at ht hminus
    obtain ⟨m, hm, tokens_eq, here⟩ := ihl hl ht hminus
    obtain ⟨m', hm', tokens_eq', signs⟩ := exists_attach hr hm hs hb
    refine ⟨m', hm', ?_, signs (List.mem_cons_of_mem _ here)⟩
    rw [tokens_eq', tokens_eq, tokens, List.append_assoc]
  | identifier t => exact absurd hminus (Nonterminal.Derives.identifier hq).not_minus_first
  | integer t => exact absurd hminus (Nonterminal.Derives.integer hq.1 hq.2).not_minus_first
  | boolean value t =>
    cases value with
    | true => exact absurd hminus (Nonterminal.Derives.trueWord hq).not_minus_first
    | false => exact absurd hminus (Nonterminal.Derives.falseWord hq).not_minus_first
  | parens opening inner closing =>
    have hx := Nonterminal.expression_derives_iff.2 hq.2.1
    exact absurd hminus (Nonterminal.Derives.parens hq.1 hx hq.2.2).not_minus_first

end Phrase

/-- Only a bare expression starts with a minus. -/
theorem Clause.StartsWithMinus.opening_eq {c : Clause} (h : c.StartsWithMinus)
    (hc : c.IsDerived) : c.opening = .bare := by
  obtain ⟨o, p, s⟩ := c
  obtain ⟨t, ht, hk⟩ := h
  rcases o with ⟨word, name, sign⟩ | word | -
  · obtain rfl : word = t := by simpa [tokens, Opening.tokens] using ht
    exact absurd (hk.symm.trans hc.opening.1) (by decide)
  · obtain rfl : word = t := by simpa [tokens, Opening.tokens] using ht
    exact absurd (hk.symm.trans hc.opening) (by decide)
  · rfl

/-- In a statement that starts with a minus, the expression does. -/
theorem Clause.StartsWithMinus.head?_value {c : Clause} (h : c.StartsWithMinus)
    (hc : c.IsDerived) : c.value.tokens.head? = c.tokens.head? := by
  rw [tokens, h.opening_eq hc, Opening.tokens, List.nil_append,
    List.head?_append_of_ne_nil _ c.value.tokens_ne_nil]

theorem Clause.StartsWithMinus.value {c : Clause} (h : c.StartsWithMinus) (hc : c.IsDerived) :
    ∃ t ∈ c.value.tokens.head?, t.kind = .operator .minus :=
  h.head?_value hc ▸ h

/-- A statement that starts with a minus can be joined to one without a semicolon in front of it,
and the minus then stands between two operands. -/
theorem Clause.exists_join {c d : Clause} (hc : c.IsDerived) (hd : d.IsDerived)
    (hs : c.semicolon? = none) (hm : d.StartsWithMinus) :
    ∃ m : Clause, m.IsDerived ∧ m.tokens = c.tokens ++ d.tokens ∧
      m.semicolon? = d.semicolon? ∧ ∀ t ∈ d.tokens.head?, t ∈ m.value.binarySigns := by
  have hbare := hm.opening_eq hd
  have same := hm.head?_value hd
  obtain ⟨t, ht, hk⟩ := hm
  obtain ⟨p, hp, tokens_eq, here⟩ := Phrase.exists_join
    (Nonterminal.expression_derives_iff.1 hc.value) (Nonterminal.expression_derives_iff.1 hd.value)
    (same ▸ ht) hk
  refine ⟨⟨c.opening, p, d.semicolon?⟩,
    ⟨hc.opening, Nonterminal.expression_derives_iff.2 hp, hd.semicolon⟩, ?_, rfl, ?_⟩
  · simp [tokens, tokens_eq, hs, hbare, Opening.tokens]
  · intro u hu
    obtain rfl := Option.some.inj (ht.symm.trans hu)
    exact here

/-- **Every program has a derivation in which minus signs join.** -/
theorem DerivesProgram.exists_minusJoins {ts : List Token} {cs : List Clause}
    (h : DerivesProgram ts cs) : ∃ ds, DerivesProgram ts ds ∧ MinusJoins ds := by
  obtain ⟨hcs, rfl⟩ := h
  induction cs with
  | nil => exact ⟨[], ⟨by simp, rfl⟩, .nil⟩
  | cons c cs ih =>
    rw [List.forall_mem_cons] at hcs
    obtain ⟨ds, ⟨hds, ht⟩, hm⟩ := ih hcs.2
    rw [List.flatMap_cons, ← ht]
    rcases ds with - | ⟨d, ds⟩
    · exact ⟨[c], ⟨by simpa using hcs.1, by simp⟩, .singleton c⟩
    rw [List.forall_mem_cons] at hds
    -- If the first two are joined, the result ends as the second one does, so what stands behind
    -- it need not change.
    by_cases joins : c.semicolon? = none ∧ d.StartsWithMinus
    · obtain ⟨m, hm', htm, hsm, -⟩ := Clause.exists_join hcs.1 hds.1 joins.1 joins.2
      refine ⟨m :: ds, ⟨List.forall_mem_cons.2 ⟨hm', hds.2⟩, ?_⟩, ?_⟩
      · rw [List.flatMap_cons, htm, List.flatMap_cons, List.append_assoc]
      · exact hm.cons_of_imp fun e he hn ↦ he (hsm ▸ hn)
    · refine ⟨c :: d :: ds, ⟨?_, by rw [List.flatMap_cons]⟩, .cons_cons ?_ hm⟩
      · simpa using ⟨hcs.1, hds.1, hds.2⟩
      · exact fun hn hminus ↦ joins ⟨hn, hminus⟩

end MonkeyLang
