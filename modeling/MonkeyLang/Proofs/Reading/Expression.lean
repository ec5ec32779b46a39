import MonkeyLang.Parse.Expression
import MonkeyLang.Proofs.Grammar.Strength

/-!
# What reading an expression reads

The expression reader against the grammar. A phrase with enough levels is read to its end and
then extended by what stands behind it (`readExpression_append`); with fewer levels it is
refused on the nesting limit (`readExpression_tooDeep`); and whatever is read is a phrase that
stops where no operator exceeds the floor (`exists_phrase_of_readExpression`).

How many levels are enough is `Phrase.cost`, which does not depend on the floor. The three
statements share one account of the extending loop: after a phrase was read, as many levels are
gone as its left spine has operators, and one more.
-/

namespace MonkeyLang

/-! ### Where a phrase stops -/

/-- Nothing extends a phrase where no binary operator exceeds the floor. -/
theorem binaryAt?_eq_none_iff {floor : Precedence} {tokens : List Token} :
    binaryAt? floor tokens = none ↔ ∀ (t : Token) (rest : List Token) (op : Operator),
      tokens = t :: rest → t.kind = .operator op → op.isBinary = true →
        op.precedence ≤ floor := by
  constructor
  · rintro h t rest op rfl hk hb
    by_contra hf
    have found : binaryAt? floor (t :: rest) = some (op, rest) :=
      Frame.binaryAt?_eq_some_iff.2 ⟨t, rfl, hk, hb, not_le.1 hf⟩
    rw [h] at found
    cases found
  · intro h
    rw [Option.eq_none_iff_forall_ne_some]
    rintro ⟨op, rest⟩ hs
    obtain ⟨t, ht, hk, hb, hf⟩ := Frame.binaryAt?_eq_some_iff.1 hs
    exact not_lt.2 (h t rest op ht hk hb) hf

/-- Higher floors stop at least as early. -/
theorem binaryAt?_eq_none_mono {floor floor' : Precedence} {tokens : List Token}
    (h : binaryAt? floor tokens = none) (hf : floor ≤ floor') : binaryAt? floor' tokens = none :=
  binaryAt?_eq_none_iff.2 fun t rest op ht hk hb ↦
    (binaryAt?_eq_none_iff.1 h t rest op ht hk hb).trans hf

/-- Nothing extends an operand of a unary operator. -/
theorem binaryAt?_unary (tokens : List Token) : binaryAt? .unary tokens = none :=
  binaryAt?_eq_none_iff.2 fun _ _ _ _ _ hb ↦
    (Operator.precedence_le_product hb).trans (by decide)

/-- Whatever is no operator extends nothing. -/
theorem binaryAt?_cons_of_kind {floor : Precedence} {t : Token} {rest : List Token}
    (h : ∀ op, t.kind ≠ .operator op) : binaryAt? floor (t :: rest) = none :=
  binaryAt?_eq_none_iff.2 fun u _ op hu hk _ ↦ by
    obtain ⟨rfl, -⟩ := List.cons.inj hu
    exact absurd hk (h op)

namespace Phrase

/-! ### What a phrase costs -/

/-- The number of binary operators on the left spine of a phrase. -/
def spine : Phrase → Nat
  | binary _ left _ _ => left.spine + 1
  | _ => 0

/-- The number of levels that reading a phrase takes. An operand takes one more than the phrase
inside it. Each operator of the left spine takes a level off what its right operand has. -/
def cost : Phrase → Nat
  | identifier _ => 1
  | integer _ => 1
  | boolean _ _ => 1
  | unary _ _ operand => operand.cost + 1
  | binary _ left _ right => max left.cost (left.spine + 2 + right.cost)
  | parens _ inner _ => inner.cost + 1

theorem cost_pos (p : Phrase) : 0 < p.cost := by
  induction p with
  | binary op left sign right ihl ihr =>
    rw [cost]
    omega
  | _ => exact Nat.succ_pos _

/-- The phrase as it is read in front of `rest`. -/
def parsed (p : Phrase) (rest : List Token) : Parsed Expr := ⟨p.tree, p.last, rest⟩

/-- Each operator of the spine stands behind an operand, and the last one before another. -/
theorem spine_lt_length_tokens (p : Phrase) : 2 * p.spine < p.tokens.length := by
  induction p with
  | binary op left sign right ihl ihr =>
    rw [spine, tokens, List.length_append, List.length_cons]
    omega
  | _ => simp [spine, tokens]

/-- A phrase costs no more levels than it spans tokens. -/
theorem cost_le_length_tokens (p : Phrase) : p.cost ≤ p.tokens.length := by
  induction p with
  | identifier | integer | boolean => exact Nat.le_refl 1
  | unary op sign operand ih => exact Nat.succ_le_succ ih
  | binary op left sign right ihl ihr =>
    have := left.spine_lt_length_tokens
    rw [cost, tokens, List.length_append, List.length_cons]
    omega
  | parens opening inner closing ih =>
    rw [cost, tokens, List.length_cons, List.length_append, List.length_singleton]
    omega

/-- An operand has no operators on its spine. -/
theorem TighterThan.spine_eq {p : Phrase} (h : p.TighterThan .unary) : p.spine = 0 := by
  cases p with
  | binary op left sign right =>
    have := h.2.1.trans_le (Operator.precedence_le_product h.1.2)
    exact absurd this (by decide)
  | _ => rfl

/-- A phrase accounts for what was read off the tokens if it stands in front of them, exceeds the
floor, and costs no more than the levels that there were. -/
structure AccountsFor (p : Phrase) (levels : Nat) (floor : Precedence) (tokens : List Token)
    (e : Parsed Expr) : Prop where
  tighter : p.TighterThan floor
  cost_le : p.cost ≤ levels
  tokens_eq : p.tokens ++ e.rest = tokens
  parsed_eq : p.parsed e.rest = e

/-- What does not extend a phrase at the floor that it exceeds does not extend it at its own
strength either. -/
theorem TighterThan.binaryAt?_strength {p : Phrase} {floor : Precedence} {rest : List Token}
    (h : p.TighterThan floor) (hr : binaryAt? floor rest = none) :
    binaryAt? p.strength rest = none := by
  cases p with
  | binary op left sign right => exact binaryAt?_eq_none_mono hr h.2.1.le
  | _ => exact binaryAt?_unary rest

/-- A binary operator stops the reading of its own left operand. -/
theorem TighterThan.binaryAt?_eq_none {left : Phrase} {sign : Token} {op : Operator}
    {rest : List Token} (hl : left.TighterThan op.precedence.lower)
    (hs : sign.kind = .operator op) (hb : op.isBinary = true) :
    binaryAt? left.strength (sign :: rest) = none := by
  refine binaryAt?_eq_none_iff.2 fun t rest' op' ht hk _ ↦ ?_
  obtain ⟨rfl, -⟩ := List.cons.inj ht
  obtain rfl := TokenKind.operator.inj (hs.symm.trans hk)
  exact hl.precedence_le_strength hb

end Phrase

/-- A reading whose value is changed succeeds exactly if the reading does. -/
theorem Reading.map_eq_ok_iff {α β : Type} {r : Reading α} {g : Parsed α → Parsed β}
    {e : Parsed β} : r.map g = .ok e ↔ ∃ x, r = .ok x ∧ g x = e := by
  rcases r with e' | x <;> simp [Except.map]

/-- A reading whose value is changed fails exactly as the reading does. -/
theorem Reading.map_eq_error_iff {α β : Type} {r : Reading α} {g : Parsed α → Parsed β}
    {e : Failure} : r.map g = .error e ↔ r = .error e := by
  rcases r with e' | x <;> simp [Except.map]

namespace Frame

variable (f : Frame)

/-- A token of the kind due is read. -/
theorem expect_cons {kind : TokenKind} {t : Token} (h : t.kind = kind) (last : Token)
    (rest : List Token) : f.expect kind last (t :: rest) = .ok ⟨t, t, rest⟩ :=
  if_pos h

/-- A token of the kind due is read exactly if it stands there. The end of the input is never
due. -/
theorem expect_eq_ok_iff {kind : TokenKind} (hk : kind ≠ .endOfInput) {last : Token}
    {rest : List Token} {e : Parsed Token} :
    f.expect kind last rest = .ok e ↔
      ∃ t behind, rest = t :: behind ∧ t.kind = kind ∧ e = ⟨t, t, behind⟩ := by
  rw [expect]
  cases rest with
  | nil =>
    have : (f.facing []).kind ≠ kind := fun h ↦ hk h.symm
    simp [this]
  | cons t behind =>
    rw [facing, Token.head_cons]
    constructor
    · intro h
      split at h
      · rename_i ht
        exact ⟨t, behind, rfl, ht, (Except.ok.inj h).symm⟩
      · cases h
    · rintro ⟨_, _, hr, rfl, rfl⟩
      obtain ⟨rfl, rfl⟩ := List.cons.inj hr
      exact f.expect_cons rfl last behind

/-! ### Reading a phrase to its end -/

/-- Where nothing extends a phrase, the phrase is the result, whatever levels are left. -/
theorem extend_of_binaryAt?_eq_none {levels : Nat} {floor : Precedence} {left : Parsed Expr}
    (h : binaryAt? floor left.rest = none) : f.extend levels floor left = .ok left := by
  cases levels <;> rw [extend, h]

/-- An operand that was read is extended with the levels that are left. -/
theorem readExpression_of_readOperand {levels : Nat} {floor : Precedence} {tokens : List Token}
    {left : Parsed Expr} (h : f.readOperand (f.readExpression levels) tokens = .ok left) :
    f.readExpression (levels + 1) floor tokens = f.extend levels floor left := by
  rw [readExpression, h]

/-- An operator that extends a phrase costs a level, and so does each level of its operand. -/
theorem extend_of_kind {levels : Nat} {floor : Precedence} {left : Parsed Expr} {sign : Token}
    {op : Operator} {rest : List Token} (hs : sign.kind = .operator op)
    (hb : op.isBinary = true) (hf : floor < op.precedence) (hr : left.rest = sign :: rest) :
    f.extend (levels + 1) floor left =
      match f.readExpression levels op.precedence rest with
      | .error e => .error e
      | .ok right => f.extend levels floor (right.map (.binary op left.value)) := by
  have found : binaryAt? floor left.rest = some (op, rest) :=
    binaryAt?_eq_some_iff.2 ⟨sign, hr, hs, hb, hf⟩
  rcases hread : f.readExpression levels op.precedence rest with e | right <;>
    simp only [extend, found, Operator.rightFloor_of_isBinary hb, hread]

/-- **A phrase is read to its end.** With the levels that it costs, and if nothing behind it binds
tighter than it does, reading arrives behind it and goes on to extend it. -/
theorem readExpression_append {p : Phrase} {floor : Precedence} {rest : List Token} {levels : Nat}
    (hp : p.TighterThan floor) (hr : binaryAt? p.strength rest = none) (hl : p.cost ≤ levels) :
    f.readExpression levels floor (p.tokens ++ rest) =
      f.extend (levels - 1 - p.spine) floor (p.parsed rest) := by
  induction p generalizing floor rest levels with
  | identifier t =>
    obtain ⟨levels, rfl⟩ := Nat.exists_eq_add_one.2 hl
    have hk : t.kind = .identifier := hp
    refine f.readExpression_of_readOperand ?_
    rw [Phrase.tokens, List.singleton_append, readOperand, hk]
    rfl
  | integer t =>
    obtain ⟨levels, rfl⟩ := Nat.exists_eq_add_one.2 hl
    obtain ⟨hk, hv⟩ := hp
    refine f.readExpression_of_readOperand ?_
    rw [Phrase.tokens, List.singleton_append, readOperand, hk]
    exact if_pos hv
  | boolean value t =>
    obtain ⟨levels, rfl⟩ := Nat.exists_eq_add_one.2 hl
    have hk : t.kind = .keyword (if value then .trueWord else .falseWord) := hp
    refine f.readExpression_of_readOperand ?_
    rw [Phrase.tokens, List.singleton_append, readOperand, hk]
    cases value <;> rfl
  | unary op sign operand ih =>
    obtain ⟨levels, rfl⟩ := Nat.exists_eq_add_one.2 (Nat.zero_lt_of_lt hl)
    obtain ⟨hs, hop, hx⟩ := hp
    have inside := @ih _ rest levels hx (hx.binaryAt?_strength (binaryAt?_unary rest))
      (Nat.le_of_succ_le_succ hl)
    rw [f.extend_of_binaryAt?_eq_none (binaryAt?_unary _)] at inside
    refine f.readExpression_of_readOperand ?_
    rw [Phrase.tokens, List.cons_append, readOperand, hs]
    simp only [hop, if_true]
    rw [inside]
    rfl
  | parens opening inner closing ih =>
    obtain ⟨levels, rfl⟩ := Nat.exists_eq_add_one.2 (Nat.zero_lt_of_lt hl)
    obtain ⟨ho, hx, hc⟩ := hp
    have stops : ∀ floor, binaryAt? floor (closing :: rest) = none := fun floor ↦
      binaryAt?_cons_of_kind fun op ↦ by simp [hc]
    have inside := @ih _ (closing :: rest) levels hx (stops _) (Nat.le_of_succ_le_succ hl)
    rw [f.extend_of_binaryAt?_eq_none (stops _)] at inside
    refine f.readExpression_of_readOperand ?_
    rw [Phrase.tokens, List.cons_append, List.append_assoc, List.singleton_append, readOperand, ho]
    simp only [inside]
    rw [Phrase.parsed, f.expect_cons hc]
    rfl
  | binary op left sign right ihl ihr =>
    obtain ⟨⟨hs, hb⟩, hf, hx, hy⟩ := hp
    rw [Phrase.cost, Nat.max_le] at hl
    -- Reading the left operand leaves the loop in front of the operator, with as many levels gone
    -- as that operand's spine is long. The operator takes one more of them.
    have toLeft := @ihl _ (sign :: (right.tokens ++ rest)) _ (hx.anti (Precedence.le_lower hf))
      (hx.binaryAt?_eq_none hs hb) hl.1
    obtain ⟨spare, hspare⟩ : ∃ spare, levels - 1 - left.spine = spare + 1 :=
      ⟨levels - left.spine - 2, by omega⟩
    have toRight := @ihr op.precedence rest spare hy (hy.binaryAt?_strength hr) (by omega)
    rw [f.extend_of_binaryAt?_eq_none hr] at toRight
    rw [Phrase.tokens, List.append_assoc, List.cons_append, toLeft, hspare,
      f.extend_of_kind hs hb hf rfl, toRight]
    have : levels - 1 - (Phrase.binary op left sign right).spine = spare := by
      rw [Phrase.spine]
      omega
    rw [this]
    rfl

/-! ### Refusing a phrase that is nested too deeply -/

/-- An operand that was refused is the refusal of the whole expression. -/
theorem readExpression_of_readOperand_error {levels : Nat} {floor : Precedence}
    {tokens : List Token} {e : Failure}
    (h : f.readOperand (f.readExpression levels) tokens = .error e) :
    f.readExpression (levels + 1) floor tokens = .error e := by
  rw [readExpression, h]

/-- **A phrase is refused on the nesting limit with fewer levels than it costs**, whatever stands
behind it. -/
theorem readExpression_tooDeep {p : Phrase} {floor : Precedence} {rest : List Token}
    {levels : Nat} (hp : p.TighterThan floor) (hl : levels < p.cost) :
    ∃ e, f.readExpression levels floor (p.tokens ++ rest) = .error e ∧
      e.error.cause = .nestingTooDeep f.config.maxDepth := by
  have no_levels : ∀ floor tokens, ∃ e, f.readExpression 0 floor tokens = .error e ∧
      e.error.cause = .nestingTooDeep f.config.maxDepth :=
    fun floor tokens ↦ ⟨f.tooDeep tokens tokens, by rw [readExpression], rfl⟩
  induction p generalizing floor rest levels with
  | identifier | integer | boolean =>
    obtain rfl := Nat.lt_one_iff.1 hl
    exact no_levels _ _
  | unary op sign operand ih =>
    cases levels with
    | zero => exact no_levels _ _
    | succ levels =>
      obtain ⟨hs, hop, hx⟩ := hp
      obtain ⟨e, he, hc⟩ := @ih _ rest _ hx (Nat.lt_of_succ_lt_succ hl)
      refine ⟨e, f.readExpression_of_readOperand_error ?_, hc⟩
      rw [Phrase.tokens, List.cons_append, readOperand, hs]
      simp only [hop, if_true]
      rw [he]
      rfl
  | parens opening inner closing ih =>
    cases levels with
    | zero => exact no_levels _ _
    | succ levels =>
      obtain ⟨ho, hx, -⟩ := hp
      obtain ⟨e, he, hc⟩ := @ih _ (closing :: rest) _ hx (Nat.lt_of_succ_lt_succ hl)
      refine ⟨e, f.readExpression_of_readOperand_error ?_, hc⟩
      rw [Phrase.tokens, List.cons_append, List.append_assoc, List.singleton_append, readOperand,
        ho]
      simp only [he]
  | binary op left sign right ihl ihr =>
    obtain ⟨⟨hs, hb⟩, hf, hx, hy⟩ := hp
    have hxf := hx.anti (Precedence.le_lower hf)
    rw [Phrase.tokens, List.append_assoc, List.cons_append]
    -- The levels run out in the left operand, at the operator, or in the right operand.
    by_cases toSign : levels < left.cost
    · exact ihl hxf toSign
    rw [f.readExpression_append hxf (hx.binaryAt?_eq_none hs hb) (not_lt.1 toSign)]
    rw [Phrase.cost] at hl
    cases hspare : levels - 1 - left.spine with
    | zero =>
      have found : binaryAt? floor (left.parsed (sign :: (right.tokens ++ rest))).rest =
          some (op, right.tokens ++ rest) := binaryAt?_eq_some_iff.2 ⟨sign, rfl, hs, hb, hf⟩
      exact ⟨_, by rw [extend, found], rfl⟩
    | succ spare =>
      obtain ⟨e, he, hc⟩ := @ihr _ rest spare hy (by omega)
      exact ⟨e, by rw [f.extend_of_kind hs hb hf rfl, he], hc⟩

/-! ### Whatever is read is a phrase -/

/-- An operand that was read is a phrase, if the expressions inside it are. -/
theorem exists_phrase_of_readOperand {levels : Nat} {tokens : List Token} {e : Parsed Expr}
    (inside : ∀ floor tokens e, f.readExpression levels floor tokens = .ok e →
      ∃ p : Phrase, p.AccountsFor levels floor tokens e ∧ binaryAt? floor e.rest = none)
    (h : f.readOperand (f.readExpression levels) tokens = .ok e) :
    ∃ p : Phrase, p.AccountsFor (levels + 1) .unary tokens e := by
  cases tokens with
  | nil => cases h
  | cons t rest =>
    rw [readOperand] at h
    split at h
    · rename_i hk
      obtain rfl := Except.ok.inj h
      exact ⟨.identifier t, hk, by simp [Phrase.cost], rfl, rfl⟩
    · rename_i hk
      rw [readInteger] at h
      split at h
      · rename_i hv
        obtain rfl := Except.ok.inj h
        exact ⟨.integer t, ⟨hk, hv⟩, by simp [Phrase.cost], rfl, rfl⟩
      · cases h
    · rename_i hk
      obtain rfl := Except.ok.inj h
      exact ⟨.boolean true t, hk, by simp [Phrase.cost], rfl, rfl⟩
    · rename_i hk
      obtain rfl := Except.ok.inj h
      exact ⟨.boolean false t, hk, by simp [Phrase.cost], rfl, rfl⟩
    · rename_i op hk
      split at h
      · rename_i hop
        obtain ⟨x, hx, rfl⟩ := Reading.map_eq_ok_iff.1 h
        obtain ⟨p, ⟨hp, hl, ht, hv⟩, -⟩ := inside _ _ _ hx
        refine ⟨.unary op t p, ⟨hk, hop, hp⟩, Nat.succ_le_succ hl, congrArg (t :: ·) ht, ?_⟩
        rw [← hv]
        rfl
      · cases h
    · rename_i hk
      split at h
      · cases h
      · rename_i x hx
        obtain ⟨p, ⟨hp, hl, ht, hv⟩, -⟩ := inside _ _ _ hx
        obtain ⟨c, hc, rfl⟩ := Reading.map_eq_ok_iff.1 h
        obtain ⟨closing, behind, hr, hk', rfl⟩ := (f.expect_eq_ok_iff (by decide)).1 hc
        refine ⟨.parens t p closing, ⟨hk, hp, hk'⟩, Nat.succ_le_succ hl, ?_, ?_⟩
        · rw [Phrase.tokens, ← ht, hr]
          simp [Parsed.map]
        · rw [← hv]
          rfl
    · cases h

/-- **Whatever is read is a phrase** that exceeds the floor, up to where no operator behind it
does. -/
theorem exists_phrase_of_readExpression (levels : Nat) :
    (∀ floor tokens e, f.readExpression levels floor tokens = .ok e →
      ∃ p : Phrase, p.AccountsFor levels floor tokens e ∧ binaryAt? floor e.rest = none) ∧
    ∀ floor (p : Phrase) rest e, p.TighterThan floor → binaryAt? p.strength rest = none →
      p.cost ≤ levels + 1 + p.spine → f.extend levels floor (p.parsed rest) = .ok e →
        ∃ q : Phrase, q.AccountsFor (levels + 1 + p.spine) floor (p.tokens ++ rest) e ∧
          binaryAt? floor e.rest = none := by
  have stopped : ∀ {levels floor} {p : Phrase} {rest e}, p.TighterThan floor →
      p.cost ≤ levels → binaryAt? floor rest = none → (.ok (p.parsed rest) : Reading Expr) = .ok e →
        ∃ q : Phrase, q.AccountsFor levels floor (p.tokens ++ rest) e ∧
          binaryAt? floor e.rest = none := by
    intro levels floor p rest e hp hl hn he
    obtain rfl := Except.ok.inj he
    exact ⟨p, ⟨hp, hl, rfl, rfl⟩, hn⟩
  induction levels with
  | zero =>
    constructor
    · intro floor tokens e h
      rw [readExpression] at h
      cases h
    · intro floor p rest e hp _ hl h
      rw [extend] at h
      split at h
      · rename_i hn
        exact stopped hp hl hn h
      · cases h
  | succ levels ih =>
    constructor
    · intro floor tokens e h
      rw [readExpression] at h
      split at h
      · cases h
      · rename_i left hx
        obtain ⟨p, hp, hl, ht, hv⟩ := f.exists_phrase_of_readOperand ih.1 hx
        rw [← hv] at h
        have extended := ih.2 floor p left.rest e hp.of_unary
          (hp.binaryAt?_strength (binaryAt?_unary left.rest)) (by omega) h
        rwa [hp.spine_eq, Nat.add_zero, ht] at extended
    · intro floor p rest e hp hs hl h
      rw [extend] at h
      split at h
      · rename_i hn
        exact stopped hp hl hn h
      · rename_i op behind hfound
        obtain ⟨sign, hsign, hk, hb, hf⟩ := binaryAt?_eq_some_iff.1 hfound
        split at h
        · cases h
        · rename_i right hright
          rw [Operator.rightFloor_of_isBinary hb] at hright
          obtain ⟨q, ⟨hq, hql, hqt, hqv⟩, hqs⟩ := ih.1 _ _ _ hright
          obtain rfl : rest = sign :: behind := hsign
          have weaker : op.precedence ≤ p.strength :=
            binaryAt?_eq_none_iff.1 hs sign behind op rfl hk hb
          have above := Operator.lowest_lt_precedence_of_isBinary hb
          -- The loop goes on with a phrase whose spine is longer by one, and a level less.
          have joined : (Phrase.binary op p sign q).TighterThan floor :=
            ⟨⟨hk, hb⟩, hf, hp.of_lt_strength ((Precedence.lower_lt_iff above).2 weaker), hq⟩
          have extended := ih.2 floor (.binary op p sign q) right.rest e joined hqs
            (by rw [Phrase.cost, Phrase.spine]; omega) (by rw [← h, ← hqv]; rfl)
          rwa [Phrase.spine, Phrase.tokens, List.append_assoc, List.cons_append, hqt,
            show levels + 1 + (p.spine + 1) = levels + 1 + 1 + p.spine by omega] at extended

end Frame

end MonkeyLang
