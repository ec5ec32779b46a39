import MonkeyLang.Proofs.Grammar.Acceptance

/-!
# The least limit that admits a text

What a limit on nesting has to be for a text to be parsed without an error. The answer is read off
the calls of the expression reader. Each call that is open takes a level, and so does each operator
that its own loop has passed, so a call costs what its operand costs inside it, or what one of its
right operands costs behind the operators in front of it (`Frame.callCost`). A limit admits a text
if and only if it reaches the costs of the outermost calls of its statements
(`parse_limit_exact`).

The calls of a reading without errors are the phrases of its derivation: the operators that a call's
own loop passes are those on the phrase's left spine, and the cost of the call is that of the phrase
(`Frame.callCost_append`). What limits admit a phrase is known from `Phrase.cost`. So it remains to
find the phrases of a text, and its derivation is unique.
-/

namespace MonkeyLang

namespace Frame

variable (f : Frame)

/-! ### The cost of a call -/

/-- The cost of an operand: a leaf costs one level, and a unary operator or a pair of parentheses
one more than the call for what is inside, which costs `inner`. -/
def operandCost (inner : Precedence → List Token → Nat) : List Token → Nat
  | [] => 1
  | t :: rest =>
    match t.kind with
    | .operator _ => 1 + inner .unary rest
    | .punctuation .lparen => 1 + inner .lowest rest
    | _ => 1

mutual

/-- The cost of a call of `readExpression` with the same arguments: that of its operand, or of one
of the operators behind it, and no less than one. A call without levels is refused, and counts
one. -/
def callCost : Nat → Precedence → List Token → Nat
  | 0, _, _ => 1
  | levels + 1, floor, tokens =>
    max 1 <| max (operandCost (callCost levels) tokens) <|
      match f.readOperand (f.readExpression levels) tokens with
      | .error _ => 0
      | .ok left => loopCost levels floor 1 left

/-- The cost of the operators with which the loop of a call extends a phrase, the `i`-th operator of
the call and those behind it: the `i`-th one costs `1 + i` levels and what the call for its right
operand costs. -/
def loopCost : Nat → Precedence → Nat → Parsed Expr → Nat
  | 0, _, _, _ => 0
  | levels + 1, floor, i, left =>
    match binaryAt? floor left.rest with
    | none => 0
    | some (op, rest) =>
      max (1 + i + callCost levels op.rightFloor rest) <|
        match f.readExpression levels op.rightFloor rest with
        | .error _ => 0
        | .ok right => loopCost levels floor (i + 1) (right.map (.binary op left.value))

end

/-- A loop that stops at once costs nothing. -/
theorem loopCost_of_binaryAt?_eq_none {levels i : Nat} {floor : Precedence} {left : Parsed Expr}
    (h : binaryAt? floor left.rest = none) : f.loopCost levels floor i left = 0 := by
  cases levels <;> rw [loopCost]
  rw [h]

/-- The cost of a loop is that of its first operator, and of the loop behind it. -/
theorem loopCost_of_kind {levels i : Nat} {floor : Precedence} {left right : Parsed Expr}
    {sign : Token} {op : Operator} {rest : List Token} (hs : sign.kind = .operator op)
    (hb : op.isBinary = true) (hf : floor < op.precedence) (hr : left.rest = sign :: rest)
    (hread : f.readExpression levels op.precedence rest = .ok right) :
    f.loopCost (levels + 1) floor i left =
      max (1 + i + f.callCost levels op.precedence rest)
        (f.loopCost levels floor (i + 1) (right.map (.binary op left.value))) := by
  have found : binaryAt? floor left.rest = some (op, rest) :=
    binaryAt?_eq_some_iff.2 ⟨sign, hr, hs, hb, hf⟩
  simp only [loopCost, found, Operator.rightFloor_of_isBinary hb, hread]

/-! ### The cost of a call is the cost of its phrase -/

/-- An operand is read to its end with the levels that it costs. -/
theorem readOperand_append {p : Phrase} (hp : p.TighterThan .unary) {levels : Nat}
    (hl : p.cost ≤ levels + 1) (rest : List Token) :
    f.readOperand (f.readExpression levels) (p.tokens ++ rest) = .ok (p.parsed rest) := by
  have whole := f.readExpression_append hp (hp.binaryAt?_strength (binaryAt?_unary rest)) hl
  rw [f.extend_of_binaryAt?_eq_none (binaryAt?_unary _), readExpression] at whole
  rcases hr : f.readOperand (f.readExpression levels) (p.tokens ++ rest) with e | left
  · rw [hr] at whole
    cases whole
  · rw [hr] at whole
    simp only [f.extend_of_binaryAt?_eq_none (binaryAt?_unary _)] at whole
    exact whole

/-- A call whose operand is a phrase costs what the phrase does, or what its loop does. -/
theorem callCost_of_operand {p : Phrase} (hp : p.TighterThan .unary) {levels : Nat}
    (hl : p.cost ≤ levels + 1) {floor : Precedence} {rest : List Token}
    (inside : operandCost (f.callCost levels) (p.tokens ++ rest) = p.cost) :
    f.callCost (levels + 1) floor (p.tokens ++ rest) =
      max p.cost (f.loopCost levels floor 1 (p.parsed rest)) := by
  have := p.cost_pos
  rw [callCost, f.readOperand_append hp hl, inside]
  show max 1 (max p.cost (f.loopCost levels floor 1 (p.parsed rest))) = _
  omega

/-- **A call costs what its phrase does**, or what its loop costs behind the phrase. -/
theorem callCost_append {p : Phrase} {floor : Precedence} {rest : List Token} {levels : Nat}
    (hp : p.TighterThan floor) (hr : binaryAt? p.strength rest = none) (hl : p.cost ≤ levels) :
    f.callCost levels floor (p.tokens ++ rest) =
      max p.cost (f.loopCost (levels - 1 - p.spine) floor (p.spine + 1) (p.parsed rest)) := by
  induction p generalizing floor rest levels with
  | identifier t =>
    obtain ⟨levels, rfl⟩ := Nat.exists_eq_add_one.2 hl
    have hk : t.kind = .identifier := hp
    refine f.callCost_of_operand hp hl ?_
    rw [Phrase.tokens, List.singleton_append, operandCost, hk]
    rfl
  | integer t =>
    obtain ⟨levels, rfl⟩ := Nat.exists_eq_add_one.2 hl
    refine f.callCost_of_operand hp hl ?_
    rw [Phrase.tokens, List.singleton_append, operandCost, hp.1]
    rfl
  | boolean value t =>
    obtain ⟨levels, rfl⟩ := Nat.exists_eq_add_one.2 hl
    have hk : t.kind = .keyword (if value then .trueWord else .falseWord) := hp
    refine f.callCost_of_operand hp hl ?_
    rw [Phrase.tokens, List.singleton_append, operandCost, hk]
    rfl
  | unary op sign operand ih =>
    obtain ⟨levels, rfl⟩ := Nat.exists_eq_add_one.2 (Nat.zero_lt_of_lt hl)
    obtain ⟨hs, hop, hx⟩ := id hp
    have inside := @ih _ rest levels hx (hx.binaryAt?_strength (binaryAt?_unary rest))
      (Nat.le_of_succ_le_succ hl)
    rw [f.loopCost_of_binaryAt?_eq_none (binaryAt?_unary _), Nat.max_zero] at inside
    refine f.callCost_of_operand hp hl ?_
    rw [Phrase.tokens, List.cons_append, operandCost, hs]
    show 1 + f.callCost levels .unary (operand.tokens ++ rest) = operand.cost + 1
    omega
  | parens opening inner closing ih =>
    obtain ⟨levels, rfl⟩ := Nat.exists_eq_add_one.2 (Nat.zero_lt_of_lt hl)
    obtain ⟨ho, hx, hc⟩ := id hp
    have stops : ∀ floor, binaryAt? floor (closing :: rest) = none := fun floor ↦
      binaryAt?_cons_of_kind fun op ↦ by simp [hc]
    have inside := @ih _ (closing :: rest) levels hx (stops _) (Nat.le_of_succ_le_succ hl)
    rw [f.loopCost_of_binaryAt?_eq_none (stops _), Nat.max_zero] at inside
    refine f.callCost_of_operand hp hl ?_
    rw [Phrase.tokens, List.cons_append, List.append_assoc, List.singleton_append, operandCost, ho]
    show 1 + f.callCost levels .lowest (inner.tokens ++ closing :: rest) = inner.cost + 1
    omega
  | binary op left sign right ihl ihr =>
    obtain ⟨⟨hs, hb⟩, hf, hx, hy⟩ := hp
    rw [Phrase.cost, Nat.max_le] at hl
    -- The call goes on behind its left operand with the operator that extends it, the one after
    -- those on that operand's spine.
    have toLeft := @ihl _ (sign :: (right.tokens ++ rest)) _ (hx.anti (Precedence.le_lower hf))
      (hx.binaryAt?_eq_none hs hb) hl.1
    obtain ⟨spare, hspare⟩ : ∃ spare, levels - 1 - left.spine = spare + 1 :=
      ⟨levels - left.spine - 2, by omega⟩
    have enough : right.cost ≤ spare := by omega
    have ends := hy.binaryAt?_strength hr
    have toRight := @ihr op.precedence rest spare hy ends enough
    have read := f.readExpression_append hy ends enough
    rw [f.loopCost_of_binaryAt?_eq_none hr, Nat.max_zero] at toRight
    rw [f.extend_of_binaryAt?_eq_none hr] at read
    rw [Phrase.tokens, List.append_assoc, List.cons_append, toLeft, hspare,
      f.loopCost_of_kind hs hb hf rfl read, toRight, Phrase.cost, Phrase.spine,
      show levels - 1 - (left.spine + 1) = spare by omega]
    show max left.cost (max (1 + (left.spine + 1) + right.cost)
        (f.loopCost spare floor (left.spine + 1 + 1)
          ((Phrase.binary op left sign right).parsed rest))) = _
    omega

/-- The call that reads a phrase to its end costs what the phrase does. -/
theorem callCost_eq_cost {p : Phrase} {floor : Precedence} {rest : List Token} {levels : Nat}
    (hp : p.TighterThan floor) (hr : binaryAt? floor rest = none) (hl : p.cost ≤ levels) :
    f.callCost levels floor (p.tokens ++ rest) = p.cost := by
  rw [f.callCost_append hp (hp.binaryAt?_strength hr) hl, f.loopCost_of_binaryAt?_eq_none hr,
    Nat.max_zero]

end Frame

/-! ### The costs of the statements of a text -/

/-- The tokens from which on the expression of a statement is read: behind the name and the sign of
a binding, behind the word of a return, and else all. -/
def Attempt.valueTokens (a : Attempt) : List Token :=
  match a.start with
  | [] => []
  | first :: rest =>
    match first.kind with
    | .keyword .letWord => rest.drop 2
    | .keyword .returnWord => rest
    | _ => first :: rest

/-- The costs of the outermost calls of the statements of a text, each the call that reads the
statement's expression. -/
def statementCosts (config : Config) (source : String) : List Nat :=
  let f := sourceFrame config source
  (f.attempts (Cursor.start source).pending).map fun a ↦
    f.callCost config.maxDepth .lowest a.valueTokens

/-- The expression of a statement is read behind the opening. -/
theorem Opening.valueTokens_eq {o : Opening} (ho : o.IsDerived) {tokens : List Token}
    (ht : ∃ t more, tokens = t :: more ∧ t.kind.startsExpression = true) (r : Reading Statement) :
    (⟨o.tokens ++ tokens, r⟩ : Attempt).valueTokens = tokens := by
  rcases o with ⟨word, name, sign⟩ | word | -
  · simp only [Attempt.valueTokens, Opening.tokens, List.cons_append, ho.1]
    rfl
  · have hw : word.kind = .keyword .returnWord := ho
    simp only [Attempt.valueTokens, Opening.tokens, List.cons_append, hw]
    rfl
  · obtain ⟨t, more, rfl, hk⟩ := ht
    simp only [Attempt.valueTokens, Opening.tokens, List.nil_append]
    split
    · rename_i hw
      rw [hw] at hk
      cases hk
    · rename_i hw
      rw [hw] at hk
      cases hk
    · rfl

/-- The costs of the statements of a derivation are those of its expressions. -/
theorem Frame.map_callCost_attempts (f : Frame) {cs : List Clause} (hcs : ∀ c ∈ cs, c.IsDerived)
    (hm : MinusJoins cs) (hl : ∀ c ∈ cs, c.value.cost ≤ f.config.maxDepth) :
    ((f.attempts (cs.flatMap Clause.tokens)).map fun a ↦
        f.callCost f.config.maxDepth .lowest a.valueTokens) =
      cs.map fun c ↦ c.value.cost := by
  induction cs with
  | nil => rw [List.flatMap_nil, attempts_nil, List.map_nil, List.map_nil]
  | cons c cs ih =>
    rw [List.forall_mem_cons] at hcs hl
    have ends := hm.endsBefore hcs.2
    obtain ⟨first, more, ht, hread⟩ := f.readStatement_append hcs.1 ends hl.1
    have here : (Attempt.make f first more).valueTokens =
        c.value.tokens ++ (c.semicolon?.toList ++ cs.flatMap Clause.tokens) := by
      rw [Attempt.make, ← ht, c.tokens_append]
      exact Opening.valueTokens_eq hcs.1.opening (hcs.1.exists_first_value _) _
    have cost := f.callCost_eq_cost (Nonterminal.expression_derives_iff.1 hcs.1.value)
      (ends.binaryAt?_eq_none hcs.1) hl.1
    rw [List.flatMap_cons, ht, attempts_cons, List.map_cons, List.map_cons, here, cost,
      Attempt.rest_make_of_ok hread]
    exact congrArg (c.value.cost :: ·) (ih hcs.2 hm.tail hl.2)

/-- A text that has a derivation is parsed without errors under exactly the limits that its
expressions allow. -/
theorem parse_errors_eq_nil_iff_of_derivesProgram {source : String} {cs : List Clause}
    (h : DerivesProgram (Cursor.start source).pending cs) (hm : MinusJoins cs) (limit : Nat) :
    (parse ⟨limit⟩ source).errors = [] ↔ ∀ c ∈ cs, c.value.cost ≤ limit := by
  constructor
  · intro clean
    obtain ⟨ds, hds, hm', hl, -⟩ := exists_derivesProgram_of_parse clean
    rwa [hm.eq_of_derivesProgram hm' h hds]
  · intro hl
    rw [parse_of_derivesProgram h hm hl]

/-! ### Leaves in parentheses, behind unary operators and in chains -/

/-- Tokens that are operands by themselves. -/
def Token.IsLeaf (t : Token) : Prop :=
  t.kind = .identifier ∨ (t.kind = .integer ∧ decimalValue t.text.toList ≤ maxInteger) ∨
    t.kind = .keyword .trueWord ∨ t.kind = .keyword .falseWord

/-- A leaf inside `k` pairs of parentheses. -/
inductive Enclosed : Nat → List Token → Prop
  | leaf {t : Token} (ht : t.IsLeaf) : Enclosed 0 [t]
  | parens {k : Nat} {ts : List Token} {opening closing : Token} (h : Enclosed k ts)
    (ho : opening.kind = .punctuation .lparen) (hc : closing.kind = .punctuation .rparen) :
    Enclosed (k + 1) (opening :: (ts ++ [closing]))

/-- A leaf behind `k` unary operators. -/
inductive Signed : Nat → List Token → Prop
  | leaf {t : Token} (ht : t.IsLeaf) : Signed 0 [t]
  | unary {k : Nat} {ts : List Token} {sign : Token} {op : Operator} (h : Signed k ts)
    (hs : sign.kind = .operator op) (hop : op.isUnary = true) : Signed (k + 1) (sign :: ts)

/-- Leaves with `n` binary operators between them, all equally strong. -/
inductive Chained (strength : Precedence) : Nat → List Token → Prop
  | leaf {t : Token} (ht : t.IsLeaf) : Chained strength 0 [t]
  | binary {n : Nat} {ts : List Token} {sign t : Token} {op : Operator} (h : Chained strength n ts)
    (hs : sign.kind = .operator op) (hb : op.isBinary = true) (hp : op.precedence = strength)
    (ht : t.IsLeaf) : Chained strength (n + 1) (ts ++ [sign, t])

/-- A leaf is a phrase that costs one level. -/
theorem Token.IsLeaf.exists_phrase {t : Token} (h : t.IsLeaf) :
    ∃ p : Phrase, p.tokens = [t] ∧ p.TighterThan .unary ∧ p.cost = 1 := by
  rcases h with hk | hk | hk | hk
  · exact ⟨.identifier t, rfl, hk, rfl⟩
  · exact ⟨.integer t, rfl, hk, rfl⟩
  · exact ⟨.boolean true t, rfl, hk, rfl⟩
  · exact ⟨.boolean false t, rfl, hk, rfl⟩

/-- Each pair of parentheses costs a level. -/
theorem Enclosed.exists_phrase {k : Nat} {ts : List Token} (h : Enclosed k ts) :
    ∃ p : Phrase, p.tokens = ts ∧ p.TighterThan .unary ∧ p.cost = k + 1 := by
  induction h with
  | leaf ht => exact ht.exists_phrase
  | @parens k ts opening closing _ ho hc ih =>
    obtain ⟨p, rfl, hp, cost⟩ := ih
    exact ⟨.parens opening p closing, rfl, ⟨ho, hp.of_unary, hc⟩, congrArg (· + 1) cost⟩

/-- Each unary operator costs a level. -/
theorem Signed.exists_phrase {k : Nat} {ts : List Token} (h : Signed k ts) :
    ∃ p : Phrase, p.tokens = ts ∧ p.TighterThan .unary ∧ p.cost = k + 1 := by
  induction h with
  | leaf ht => exact ht.exists_phrase
  | @unary k ts sign op _ hs hop ih =>
    obtain ⟨p, rfl, hp, cost⟩ := ih
    exact ⟨.unary op sign p, rfl, ⟨hs, hop, hp⟩, congrArg (· + 1) cost⟩

/-- Each operator of a chain costs a level, and its last right operand costs two more. -/
theorem Chained.exists_phrase {strength : Precedence} {n : Nat} {ts : List Token}
    (h : Chained strength n ts) :
    ∃ p : Phrase, p.tokens = ts ∧ p.TighterThan strength.lower ∧ p.spine = n ∧
      p.cost = if n = 0 then 1 else n + 2 := by
  induction h with
  | leaf ht =>
    obtain ⟨p, hp, hx, cost⟩ := ht.exists_phrase
    exact ⟨p, hp, hx.of_unary, hx.spine_eq, cost⟩
  | @binary n ts sign t op _ hs hb hp ht ih =>
    subst hp
    obtain ⟨left, rfl, hl, hspine, hcost⟩ := ih
    obtain ⟨right, hr, hx, cost⟩ := ht.exists_phrase
    have above := Operator.lowest_lt_precedence_of_isBinary hb
    refine ⟨.binary op left sign right, ?_,
      ⟨⟨hs, hb⟩, (Precedence.lower_lt_iff above).2 le_rfl, hl, hx.of_unary⟩, ?_, ?_⟩
    · rw [Phrase.tokens, hr]
    · rw [Phrase.spine, hspine]
    · rw [Phrase.cost, hspine, hcost, cost, if_neg (Nat.succ_ne_zero n)]
      split <;> omega

/-- A text that is a phrase is parsed without errors under exactly the limits that reach the cost of
the phrase. -/
theorem parse_errors_eq_nil_iff_of_phrase {source : String} {p : Phrase} {floor : Precedence}
    (h : p.tokens = (tokenize source).dropLast) (hp : p.TighterThan floor) (limit : Nat) :
    (parse ⟨limit⟩ source).errors = [] ↔ p.cost ≤ limit := by
  rw [dropLast_tokenize] at h
  constructor
  · intro clean
    by_contra few
    obtain ⟨-, span, refused⟩ := @parse_of_tooDeep ⟨limit⟩ source p h.symm hp.lowest (not_le.1 few)
    rw [clean] at refused
    cases refused
  · intro enough
    rw [parse_of_phrase h.symm hp.lowest enough]

/-! ### Texts -/

/-- **The limit on nesting is exact.** A text that some limit admits is admitted by those limits
that reach the cost of the outermost call of each of its statements, and parsed to one program under
all of them. So `k` pairs of parentheses or `k` unary operators around a leaf need a limit of `k + 1`,
and a chain of `n` equally strong operators one of `n + 2`. -/
theorem parse_limit_exact :
    (∀ (config : Config) (source : String), (parse config source).errors = [] → ∀ limit : Nat,
      ((parse ⟨limit⟩ source).errors = [] ↔ ∀ n ∈ statementCosts config source, n ≤ limit) ∧
        ((parse ⟨limit⟩ source).errors = [] → parse ⟨limit⟩ source = parse config source)) ∧
    (∀ (source : String) (k limit : Nat),
      Enclosed k (tokenize source).dropLast ∨ Signed k (tokenize source).dropLast →
        ((parse ⟨limit⟩ source).errors = [] ↔ k + 1 ≤ limit)) ∧
    ∀ (source : String) (strength : Precedence) (n limit : Nat), 1 ≤ n →
      Chained strength n (tokenize source).dropLast →
        ((parse ⟨limit⟩ source).errors = [] ↔ n + 2 ≤ limit) := by
  refine ⟨fun config source clean limit ↦ ?_, fun source k limit h ↦ ?_,
    fun source strength n limit hn h ↦ ?_⟩
  · obtain ⟨cs, hcs, hm, hl, -⟩ := exists_derivesProgram_of_parse clean
    have costs : statementCosts config source = cs.map fun c ↦ c.value.cost := by
      rw [statementCosts, ← hcs.tokens_eq]
      exact (sourceFrame config source).map_callCost_attempts hcs.derived hm hl
    have exact_limits := parse_errors_eq_nil_iff_of_derivesProgram hcs hm
    rw [costs, List.forall_mem_map]
    refine ⟨exact_limits limit, fun clean' ↦ ?_⟩
    rw [parse_of_derivesProgram hcs hm hl,
      parse_of_derivesProgram hcs hm ((exact_limits limit).1 clean')]
  · obtain ⟨p, hp, hx, cost⟩ : ∃ p : Phrase, p.tokens = (tokenize source).dropLast ∧
        p.TighterThan .unary ∧ p.cost = k + 1 :=
      h.elim Enclosed.exists_phrase Signed.exists_phrase
    rw [parse_errors_eq_nil_iff_of_phrase hp hx, cost]
  · obtain ⟨p, hp, hx, -, cost⟩ := h.exists_phrase
    rw [parse_errors_eq_nil_iff_of_phrase hp hx, cost, if_neg (Nat.one_le_iff_ne_zero.1 hn)]

/-- A product inside parentheses behind a sum's sign and a minus costs seven levels, a leaf in two
pairs of parentheses three, and a chain of two operators four. -/
theorem parse_limit_exact_mixed :
    (parse ⟨256⟩ "let a = -(b + c * d) == e; f").errors = [] ∧
      statementCosts ⟨256⟩ "let a = -(b + c * d) == e; f" = [7, 1] ∧
      parse ⟨7⟩ "let a = -(b + c * d) == e; f" = parse ⟨256⟩ "let a = -(b + c * d) == e; f" ∧
      (parse ⟨6⟩ "let a = -(b + c * d) == e; f").errors ≠ [] ∧
      (∀ limit, (parse ⟨limit⟩ "((a))").errors = [] ↔ 3 ≤ limit) ∧
      ∀ limit, (parse ⟨limit⟩ "a - b + 1").errors = [] ↔ 4 ≤ limit := by
  obtain ⟨admits, encloses, chains⟩ := parse_limit_exact
  have clean : (parse ⟨256⟩ "let a = -(b + c * d) == e; f").errors = [] := by decide +kernel
  have costs : statementCosts ⟨256⟩ "let a = -(b + c * d) == e; f" = [7, 1] := by decide +kernel
  have bounds := admits ⟨256⟩ _ clean
  rw [costs] at bounds
  refine ⟨clean, costs, (bounds 7).2 ((bounds 7).1.2 (by decide)), fun clean' ↦ ?_,
    fun limit ↦ encloses _ 2 limit (.inl ?_), fun limit ↦ chains _ .sum 2 limit (by decide) ?_⟩
  · exact absurd ((bounds 6).1.1 clean') (by decide)
  · have tokens_eq : (tokenize "((a))").dropLast =
        [⟨.punctuation .lparen, "(", ⟨0, 1⟩⟩, ⟨.punctuation .lparen, "(", ⟨1, 2⟩⟩,
          ⟨.identifier, "a", ⟨2, 3⟩⟩, ⟨.punctuation .rparen, ")", ⟨3, 4⟩⟩,
          ⟨.punctuation .rparen, ")", ⟨4, 5⟩⟩] := by decide +kernel
    have inner : Enclosed 1 [⟨.punctuation .lparen, "(", ⟨1, 2⟩⟩, ⟨.identifier, "a", ⟨2, 3⟩⟩,
        ⟨.punctuation .rparen, ")", ⟨3, 4⟩⟩] := .parens (.leaf (.inl rfl)) rfl rfl
    rw [tokens_eq]
    exact inner.parens rfl rfl
  · have tokens_eq : (tokenize "a - b + 1").dropLast =
        [⟨.identifier, "a", ⟨0, 1⟩⟩, ⟨.operator .minus, "-", ⟨2, 3⟩⟩,
          ⟨.identifier, "b", ⟨4, 5⟩⟩, ⟨.operator .plus, "+", ⟨6, 7⟩⟩,
          ⟨.integer, "1", ⟨8, 9⟩⟩] := by decide +kernel
    have front : Chained .sum 1 [⟨.identifier, "a", ⟨0, 1⟩⟩, ⟨.operator .minus, "-", ⟨2, 3⟩⟩,
        ⟨.identifier, "b", ⟨4, 5⟩⟩] := .binary (.leaf (.inl rfl)) rfl rfl rfl (.inl rfl)
    rw [tokens_eq]
    exact front.binary rfl rfl rfl (.inr (.inl ⟨rfl, by decide⟩))

end MonkeyLang
