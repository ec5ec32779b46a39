import Mathlib.Order.Defs.LinearOrder
import MonkeyLang.Proofs.Grammar.Phrase

/-!
# Phrases by strength

The grammar builds expressions level by level; a reader is given a floor and goes on while
operators exceed it. `Phrase.TighterThan` is the grammar in the second form: every node says
which floors its operands exceed, and no levels are left. The two forms agree
(`derives_of_tighterThan`, `Derives.tighterThan`), so the grammar is read through the second one.

A phrase exceeds every floor below its strength and no other (`TighterThan.of_lt_strength`,
`TighterThan.lt_strength`), where the strength is that of its outermost binary operator.
-/

namespace MonkeyLang

namespace Precedence

/-- The steps of the ladder are in line. -/
instance : LinearOrder Precedence where
  le_refl p := Nat.le_refl p.rank
  le_trans p q r := Nat.le_trans
  lt_iff_le_not_ge p q := Nat.lt_iff_le_and_not_ge
  le_antisymm p q := by cases p <;> cases q <;> decide
  le_total p q := Nat.le_total p.rank q.rank
  toDecidableLE := inferInstance
  toDecidableEq := inferInstance
  toDecidableLT := inferInstance
  compare_eq_compareOfLessAndEq p q := by cases p <;> cases q <;> rfl

/-- Above the lowest step, exceeding the step below is the same as reaching the step. -/
theorem lower_lt_iff {p q : Precedence} (h : lowest < p) : p.lower < q ↔ p ≤ q := by
  rw [lt_iff, le_iff, rank_lower]
  have : 0 < p.rank := h
  omega

/-- A floor below an operator is at most the step below it. -/
theorem le_lower {p q : Precedence} (h : p < q) : p ≤ q.lower := by
  rw [le_iff, rank_lower]
  have : p.rank < q.rank := h
  omega

end Precedence

namespace Operator

theorem isUnary_iff {op : Operator} : op.isUnary = true ↔ op = .bang ∨ op = .minus := by
  cases op <;> decide

theorem isBinary_iff {op : Operator} :
    op.isBinary = true ↔ op ∈ [plus, minus, asterisk, slash, lt, gt, eqEq, notEq] := by
  cases op <;> decide

/-- No binary operator binds tighter than a product. -/
theorem precedence_le_product {op : Operator} (h : op.isBinary = true) :
    op.precedence ≤ .product := by
  revert h
  cases op <;> decide

end Operator

namespace Phrase

/-- A well-formed phrase whose outermost binary operators, those that no parentheses enclose,
all bind tighter than the floor. -/
def TighterThan : Phrase → Precedence → Prop
  | identifier t, _ => t.kind = .identifier
  | integer t, _ => t.kind = .integer ∧ decimalValue t.text.toList ≤ maxInteger
  | boolean value t, _ => t.kind = .keyword (if value then .trueWord else .falseWord)
  | unary op sign operand, _ =>
    sign.kind = .operator op ∧ op.isUnary = true ∧ operand.TighterThan .unary
  | binary op left sign right, floor =>
    (sign.kind = .operator op ∧ op.isBinary = true) ∧ floor < op.precedence ∧
      left.TighterThan op.precedence.lower ∧ right.TighterThan op.precedence
  | parens opening inner closing, _ =>
    opening.kind = .punctuation .lparen ∧ inner.TighterThan .lowest ∧
      closing.kind = .punctuation .rparen

/-- How tightly a phrase holds together: as its outermost binary operator does, or as an operand
does if it has none. -/
def strength : Phrase → Precedence
  | binary op _ _ _ => op.precedence
  | _ => .unary

/-- What a floor admits is admitted by every floor below the phrase's strength. -/
theorem TighterThan.of_lt_strength {p : Phrase} {floor floor' : Precedence}
    (h : p.TighterThan floor) (hf : floor' < p.strength) : p.TighterThan floor' := by
  cases p with
  | binary op left sign right => exact ⟨h.1, hf, h.2.2⟩
  | _ => exact h

/-- A phrase is stronger than the floors that it exceeds. -/
theorem TighterThan.lt_strength {p : Phrase} {floor : Precedence} (h : p.TighterThan floor)
    (hf : floor < .unary) : floor < p.strength := by
  cases p with
  | binary op left sign right => exact h.2.1
  | _ => exact hf

/-- Lower floors admit more. -/
theorem TighterThan.anti {p : Phrase} {floor floor' : Precedence} (h : p.TighterThan floor)
    (hf : floor' ≤ floor) : p.TighterThan floor' := by
  cases p with
  | binary op left sign right =>
    exact ⟨h.1, lt_of_le_of_lt hf h.2.1, h.2.2⟩
  | _ => exact h

theorem TighterThan.lowest {p : Phrase} {floor : Precedence} (h : p.TighterThan floor) :
    p.TighterThan .lowest :=
  h.anti (Nat.zero_le floor.rank)

/-- Above products stand operands alone, so no floor up there tells phrases apart. -/
theorem TighterThan.unary_of_product {p : Phrase} (h : p.TighterThan .product) :
    p.TighterThan .unary := by
  cases p with
  | binary op left sign right =>
    exact absurd h.2.1 (not_lt.2 (Operator.precedence_le_product h.1.2))
  | _ => exact h

/-- An operand exceeds every floor. -/
theorem TighterThan.of_unary {p : Phrase} {floor : Precedence} (h : p.TighterThan .unary) :
    p.TighterThan floor := by
  cases p with
  | binary op left sign right =>
    exact absurd (h.2.1.trans_le (Operator.precedence_le_product h.1.2)) (by decide)
  | _ => exact h

/-- The left operand of a binary operator is at least as strong as the operator. -/
theorem TighterThan.precedence_le_strength {p : Phrase} {op : Operator} (hop : op.isBinary = true)
    (h : p.TighterThan op.precedence.lower) : op.precedence ≤ p.strength := by
  have above := Operator.lowest_lt_precedence_of_isBinary hop
  refine (Precedence.lower_lt_iff above).1 (h.lt_strength ?_)
  rw [Precedence.lower_lt_iff above]
  exact le_trans (Operator.precedence_le_product hop) (by decide)

end Phrase

/-! ### The two forms of the grammar agree -/

namespace Level

/-- How tightly the operators of a level bind. -/
def precedence : Level → Precedence
  | equality => .equals
  | comparison => .lessGreater
  | sum => .sum
  | product => .product

theorem isBinary_of_mem {l : Level} {op : Operator} (h : op ∈ l.signs) : op.isBinary = true := by
  revert h
  cases l <;> cases op <;> decide

theorem precedence_of_mem {l : Level} {op : Operator} (h : op ∈ l.signs) :
    op.precedence = l.precedence := by
  revert h
  cases l <;> cases op <;> decide

/-- Every binary operator belongs to a level. -/
theorem exists_mem_signs {op : Operator} (h : op.isBinary = true) : ∃ l : Level, op ∈ l.signs := by
  revert h
  cases op with
  | plus | minus => exact fun _ ↦ ⟨.sum, by decide⟩
  | asterisk | slash => exact fun _ ↦ ⟨.product, by decide⟩
  | lt | gt => exact fun _ ↦ ⟨.comparison, by decide⟩
  | eqEq | notEq => exact fun _ ↦ ⟨.equality, by decide⟩
  | assign | bang => exact fun h ↦ absurd h (by decide)

end Level

namespace Nonterminal

/-- The floor that the phrases of a nonterminal exceed. -/
def floor : Nonterminal → Precedence
  | level l => l.precedence.lower
  | unary => .product
  | atom => .unary

theorem floor_next (l : Level) : l.next.floor = l.precedence := by
  cases l <;> rfl

/-- What a nonterminal derives exceeds its floor. -/
theorem Derives.tighterThan {n : Nonterminal} {p : Phrase} (h : n.Derives p) :
    p.TighterThan n.floor := by
  induction h with
  | @chain l p _ ih =>
    refine ih.anti ?_
    rw [floor_next]
    cases l <;> decide
  | @binary l op left right sign hop hs _ _ ihl ihr =>
    have hp := Level.precedence_of_mem hop
    rw [floor_next] at ihr
    refine ⟨⟨hs, Level.isBinary_of_mem hop⟩, ?_, ?_, ?_⟩
    · rw [hp]
      cases l <;> decide
    · rw [hp]
      exact ihl
    · rw [hp]
      exact ihr
  | atom _ ih => exact ih.anti (by decide)
  | unary hop hs _ ih =>
    refine ⟨hs, ?_, ih.unary_of_product⟩
    rcases hop with rfl | rfl <;> decide
  | identifier h => exact h
  | integer h hv => exact ⟨h, hv⟩
  | trueWord h => exact h
  | falseWord h => exact h
  | parens ho _ hc ih => exact ⟨ho, ih, hc⟩

/-- Looser levels derive more. -/
theorem Derives.of_precedence_le {l l' : Level} {p : Phrase} (h : (level l).Derives p)
    (hl : l'.precedence ≤ l.precedence) : (level l').Derives p := by
  cases l' with
  | equality =>
    cases l with
    | equality => exact h
    | comparison => exact .chain h
    | sum => exact .chain (l := .equality) (.chain h)
    | product => exact .chain (l := .equality) (.chain (l := .comparison) (.chain h))
  | comparison =>
    cases l with
    | equality => exact absurd hl (by decide)
    | comparison => exact h
    | sum => exact .chain h
    | product => exact .chain (l := .comparison) (.chain h)
  | sum =>
    cases l with
    | equality | comparison => exact absurd hl (by decide)
    | sum => exact h
    | product => exact .chain h
  | product =>
    cases l with
    | equality | comparison | sum => exact absurd hl (by decide)
    | product => exact h

/-- Every level derives the operands. -/
theorem Derives.of_unary {n : Nonterminal} {p : Phrase} (hn : n ≠ .atom) (h : Derives .unary p) :
    n.Derives p := by
  cases n with
  | level l =>
    refine Derives.of_precedence_le (l := .product) (.chain h) ?_
    cases l <;> decide
  | unary => exact h
  | atom => exact absurd rfl hn

/-- Atoms apart, what exceeds the floor of a nonterminal is derived from it. -/
theorem derives_of_tighterThan {n : Nonterminal} {p : Phrase} (hn : n ≠ .atom)
    (h : p.TighterThan n.floor) : n.Derives p := by
  induction p generalizing n with
  | identifier t => exact .of_unary hn (.atom (.identifier h))
  | integer t => exact .of_unary hn (.atom (.integer h.1 h.2))
  | boolean value t =>
    cases value with
    | true => exact .of_unary hn (.atom (.trueWord h))
    | false => exact .of_unary hn (.atom (.falseWord h))
  | unary op sign operand ih =>
    obtain ⟨hs, hop, hx⟩ := h
    refine .of_unary hn (.unary ?_ hs (ih (n := .unary) (by decide) (hx.anti (by decide))))
    revert hop
    cases op <;> decide
  | parens opening inner closing ih =>
    obtain ⟨ho, hx, hc⟩ := h
    exact .of_unary hn (.atom (.parens ho (ih (n := expression) (by decide) hx) hc))
  | binary op left sign right ihl ihr =>
    obtain ⟨⟨hs, hb⟩, hf, hl, hr⟩ := h
    -- The node is derived by the level of its operator, and so by all looser ones.
    obtain ⟨l, hop⟩ := Level.exists_mem_signs hb
    rw [Level.precedence_of_mem hop] at hf hl hr
    rw [← floor_next] at hr
    have hnext : l.next ≠ .atom := by cases l <;> decide
    have node := Derives.binary hop hs (ihl (n := .level l) (by simp) hl) (ihr hnext hr)
    cases n with
    | level l' =>
      refine node.of_precedence_le ((Precedence.lower_lt_iff ?_).1 hf)
      cases l' <;> decide
    | unary => exact absurd hf (by cases l <;> decide)
    | atom => exact absurd rfl hn

/-- The expressions of the grammar are the phrases that exceed the lowest floor. -/
theorem expression_derives_iff {p : Phrase} : expression.Derives p ↔ p.TighterThan .lowest :=
  ⟨fun h ↦ h.tighterThan, derives_of_tighterThan (n := expression) (by decide)⟩

end Nonterminal

end MonkeyLang
