import MonkeyLang.Proofs.RoundTrip.Expression

/-!
# The height of parsed trees

How high the trees are that a limit on nesting admits. The limit is spent on the way down and
given back on the way up, so a left operand that was read with all of it may be extended once
more: operators that stand behind it pay for themselves, but not for the height of what they
extend. A limit of three admits a tree of height four, and each level more admits one more operator
on top of that than the level before it did.

`maxHeight` is that height. No tree is higher (`height_le_maxHeight`), and some tree is as high
(`exists_height_eq_maxHeight`). So trees keep to the limit itself only up to a limit of two
(`heights_le_maxDepth_iff`).
-/

namespace MonkeyLang

/-- The height of an expression: a leaf has height one. -/
def Expr.height : Expr → Nat
  | unary _ operand => operand.height + 1
  | binary _ left right => max left.height right.height + 1
  | _ => 1

theorem Expr.height_pos (e : Expr) : 0 < e.height := by
  cases e <;> exact Nat.succ_pos _

/-- The largest height that a limit on nesting admits. With `n + 1` levels, an operand is a
highest tree of `n` levels in parentheses, or has as many unary operators as fit, and `n - 1`
operators extend it. -/
def maxHeight : Nat → Nat
  | 0 => 0
  | n + 1 => max (maxHeight n) (n + 1) + (n - 1)

theorem maxHeight_succ (n : Nat) : maxHeight (n + 1) = max (maxHeight n) (n + 1) + (n - 1) := rfl

theorem maxHeight_lt_succ (n : Nat) : maxHeight n < maxHeight (n + 1) := by
  rcases n with - | - | n
  · decide
  · decide
  · show maxHeight (n + 2) < max (maxHeight (n + 2)) (n + 3) + (n + 1)
    omega

/-- From three levels on, trees may be higher than there are levels. -/
theorem lt_maxHeight_add_three (n : Nat) : n + 3 < maxHeight (n + 3) := by
  rw [maxHeight_succ (n + 2)]
  omega

/-- With the usual limit, trees may be 126 times as high as that. -/
example : maxHeight defaultMaxDepth = 32388 := by
  decide +kernel

/-! ### No tree is higher -/

namespace Phrase

/-- Each operator on the spine of a phrase takes a level, and so do the operands around the
last one. -/
theorem spine_le (p : Phrase) : p.spine ≤ p.cost - 2 := by
  cases p with
  | binary op left sign right =>
    have := right.cost_pos
    rw [spine, cost]
    omega
  | _ => exact Nat.zero_le _

/-- A phrase is as high as an operand may be, and its spine on top. -/
theorem TighterThan.height_le {p : Phrase} {floor : Precedence} {n : Nat}
    (h : p.TighterThan floor) (hn : p.cost ≤ n + 1) :
    p.tree.height ≤ max (maxHeight n) (n + 1) + p.spine := by
  induction p generalizing floor n with
  | identifier | integer | boolean =>
    show 1 ≤ max (maxHeight n) (n + 1) + 0
    omega
  | unary op sign operand ih =>
    obtain ⟨-, -, hx⟩ := h
    have := operand.cost_pos
    rw [cost] at hn
    obtain ⟨n, rfl⟩ := Nat.exists_eq_add_one.2 (by omega : 0 < n)
    have inside := ih hx (Nat.le_of_succ_le_succ hn)
    have higher := maxHeight_lt_succ n
    rw [hx.spine_eq] at inside
    rw [tree, Expr.height]
    omega
  | parens opening inner closing ih =>
    obtain ⟨-, hx, -⟩ := h
    have := inner.cost_pos
    rw [cost] at hn
    obtain ⟨n, rfl⟩ := Nat.exists_eq_add_one.2 (by omega : 0 < n)
    -- In parentheses the spine does not show, but it was paid for inside them.
    have inside := ih hx (Nat.le_of_succ_le_succ hn)
    have hs := inner.spine_le
    rw [tree, maxHeight_succ]
    omega
  | binary op left sign right ihl ihr =>
    obtain ⟨-, -, hx, hy⟩ := h
    have := right.cost_pos
    rw [cost] at hn
    obtain ⟨n, rfl⟩ := Nat.exists_eq_add_of_le' (by omega : 2 ≤ n)
    have toLeft := ihl hx ((le_max_left _ _).trans hn)
    have toRight := ihr hy (by omega : right.cost ≤ n + 1)
    -- The right operand has lost two levels, so its own spine is paid for.
    have hs := right.spine_le
    have paid := maxHeight_succ n
    have higher : maxHeight (n + 1) < maxHeight (n + 2) := maxHeight_lt_succ (n + 1)
    show max left.tree.height right.tree.height + 1 ≤
      max (maxHeight (n + 2)) (n + 3) + (left.spine + 1)
    omega

/-- No phrase that a limit allows is higher than the largest height for that limit. -/
theorem TighterThan.height_le_maxHeight {p : Phrase} {floor : Precedence} {levels : Nat}
    (h : p.TighterThan floor) (hl : p.cost ≤ levels) : p.tree.height ≤ maxHeight levels := by
  have := p.cost_pos
  obtain ⟨n, rfl⟩ := Nat.exists_eq_add_one.2 (this.trans_le hl)
  have bound := h.height_le hl
  have hs := p.spine_le
  rw [maxHeight_succ]
  omega

end Phrase

/-- **No tree is higher** than the largest height for the limit on nesting, whether or not there
were errors elsewhere in the text. -/
theorem height_le_maxHeight {config : Config} {source : String} {s : Statement}
    (h : s ∈ (parse config source).program.statements) :
    s.expr.height ≤ maxHeight config.maxDepth := by
  rw [parse_eq] at h
  obtain ⟨c, hc, hl, rfl, -⟩ := Frame.exists_clause_of_mem_statements h
  rw [c.expr_tree]
  exact (Nonterminal.expression_derives_iff.1 hc.value).height_le_maxHeight hl

/-! ### Some tree is as high -/

/-- The text of additions behind an operand. -/
def additions : Nat → List Char
  | 0 => []
  | k + 1 => '+' :: 'a' :: additions k

/-- The text of an operand that costs `n + 1` levels and is as high as any: with few levels, unary
operators, and from then on a highest expression of `n` levels in parentheses. -/
def tallOperand : Nat → List Char
  | 0 => ['a']
  | n + 1 =>
    if n ≤ 1 then '-' :: tallOperand n
    else '(' :: (tallOperand n ++ (additions (n - 1) ++ [')']))

namespace Cursor

variable (here : Nat) {rest : List Char}

theorem pending_letter (hr : Leaves isLetter rest) :
    (⟨here, 'a' :: rest⟩ : Cursor).pending =
      Token.spelled .identifier here ['a'] :: (⟨here + byteLength ['a'], rest⟩ : Cursor).pending :=
  pending_word here (List.cons_ne_nil 'a' []) (List.forall_mem_singleton.2 rfl) hr

theorem pending_minus (rest : List Char) :
    (⟨here, '-' :: rest⟩ : Cursor).pending =
      Token.spelled (.operator .minus) here ['-'] ::
        (⟨here + byteLength ['-'], rest⟩ : Cursor).pending :=
  pending_operator here .minus fun h ↦ absurd h (by decide)

theorem pending_plus (rest : List Char) :
    (⟨here, '+' :: rest⟩ : Cursor).pending =
      Token.spelled (.operator .plus) here ['+'] ::
        (⟨here + byteLength ['+'], rest⟩ : Cursor).pending :=
  pending_operator here .plus fun h ↦ absurd h (by decide)

end Cursor

variable {rest : List Char}

theorem leaves_additions (k : Nat) (hr : Leaves isLetter rest) :
    Leaves isLetter (additions k ++ rest) := by
  cases k with
  | zero => exact hr
  | succ k => exact leaves_cons.2 rfl

/-- Additions behind an operand extend it, one level of height for each, as long as there are
levels left for them. -/
theorem exists_additions {k levels : Nat} {p : Phrase}
    (hp : p.TighterThan Precedence.sum.lower) (hl : p.cost ≤ levels)
    (hk : k ≤ levels - 2 - p.spine) (here : Nat) (hr : Leaves isLetter rest) :
    ∃ (q : Phrase) (there : Nat), q.TighterThan Precedence.sum.lower ∧ q.cost ≤ levels ∧
      q.tree.height = p.tree.height + k ∧
      p.tokens ++ (⟨here, additions k ++ rest⟩ : Cursor).pending =
        q.tokens ++ (⟨there, rest⟩ : Cursor).pending := by
  induction k generalizing p here with
  | zero => exact ⟨p, here, hp, hl, rfl, rfl⟩
  | succ k ih =>
    let sum : Phrase := .binary .plus p (.spelled (.operator .plus) here ['+'])
      (.identifier (.spelled .identifier (here + byteLength ['+']) ['a']))
    have hsum : sum.TighterThan Precedence.sum.lower := ⟨⟨rfl, rfl⟩, by decide, hp, rfl⟩
    have hcost : sum.cost = max p.cost (p.spine + 3) := rfl
    have hspine : sum.spine = p.spine + 1 := rfl
    obtain ⟨q, there, hq, hlevels, hheight, ht⟩ := ih hsum (by omega) (by omega)
      (here + byteLength ['+'] + byteLength ['a'])
    refine ⟨q, there, hq, hlevels, ?_, ?_⟩
    · have := p.tree.height_pos
      have highest : sum.tree.height = max p.tree.height 1 + 1 := rfl
      omega
    · rw [← ht, additions, List.cons_append, List.cons_append, Cursor.pending_plus,
        Cursor.pending_letter _ (leaves_additions k hr)]
      simp [sum, Phrase.tokens]

/-- A tall operand is read as a phrase of the height that its levels admit to an operand. -/
theorem exists_tallOperand (n here : Nat) (hr : Leaves isLetter rest) :
    ∃ (p : Phrase) (there : Nat), p.TighterThan .unary ∧ p.cost ≤ n + 1 ∧
      p.tree.height = max (maxHeight n) (n + 1) ∧
      (⟨here, tallOperand n ++ rest⟩ : Cursor).pending =
        p.tokens ++ (⟨there, rest⟩ : Cursor).pending := by
  induction n generalizing here rest with
  | zero =>
    let p : Phrase := .identifier (.spelled .identifier here ['a'])
    exact ⟨p, _, rfl, le_rfl, rfl, Cursor.pending_letter here hr⟩
  | succ n ih =>
    rw [tallOperand]
    split
    · rename_i few
      obtain ⟨p, there, hp, hcost, hheight, ht⟩ := ih (here + byteLength ['-']) hr
      let q : Phrase := .unary .minus (.spelled (.operator .minus) here ['-']) p
      refine ⟨q, there, ⟨rfl, rfl, hp⟩, Nat.succ_le_succ hcost, ?_, ?_⟩
      · show p.tree.height + 1 = _
        rw [hheight]
        rcases Nat.le_one_iff_eq_zero_or_eq_one.1 few with rfl | rfl <;> rfl
      · rw [List.cons_append, Cursor.pending_minus, ht]
        rfl
    · rename_i many
      obtain ⟨n, rfl⟩ := Nat.exists_eq_add_of_le' (not_le.1 many)
      have stop : Leaves isLetter (')' :: rest) := leaves_cons.2 rfl
      obtain ⟨p, middle, hp, hcost, hheight, ht⟩ :=
        ih (here + byteLength Punctuation.lparen.spelling.toList) (leaves_additions (n + 1) stop)
      have room : n + 1 ≤ n + 3 - 2 - p.spine := by
        rw [hp.spine_eq]
        omega
      obtain ⟨q, there, hq, hcost', hheight', ht'⟩ :=
        exists_additions hp.of_unary hcost room middle stop
      have body : (⟨here + byteLength Punctuation.lparen.spelling.toList,
            (tallOperand (n + 2) ++ additions (n + 1)) ++ ')' :: rest⟩ : Cursor).pending =
          q.tokens ++ (⟨there, ')' :: rest⟩ : Cursor).pending := by
        rw [List.append_assoc, ht, ht']
      obtain ⟨opening, closing, beyond, hall, whole⟩ :=
        Phrase.exists_parens (Nonterminal.expression_derives_iff.2 hq.lowest) body
      refine ⟨.parens opening q closing, beyond, hall.tighterThan, Nat.succ_le_succ hcost', ?_, ?_⟩
      · have grown : q.tree.height = maxHeight (n + 3) := by
          rw [hheight', hheight]
          rfl
        rw [Phrase.tree, grown]
        exact (max_eq_left (lt_maxHeight_add_three n)).symm
      · rw [← whole, List.cons_append, ← List.append_assoc (tallOperand _)]
        simp only [List.append_assoc]
        rfl

/-- **Some tree is as high** as the largest height for the limit on nesting, and its text is
parsed without an error. -/
theorem exists_height_eq_maxHeight {config : Config} (h : 0 < config.maxDepth) :
    ∃ source, (parse config source).errors = [] ∧
      ∃ s ∈ (parse config source).program.statements,
        s.expr.height = maxHeight config.maxDepth := by
  obtain ⟨n, hn⟩ := Nat.exists_eq_add_one.2 h
  obtain ⟨p, middle, hp, hcost, hheight, ht⟩ :=
    exists_tallOperand n 0 (leaves_additions (n - 1) (leaves_nil isLetter))
  have room : n - 1 ≤ n + 1 - 2 - p.spine := by
    rw [hp.spine_eq]
    omega
  obtain ⟨q, there, hq, allowed, hheight', ht'⟩ :=
    exists_additions hp.of_unary hcost room middle (leaves_nil isLetter)
  rw [ht', Cursor.pending_nil, List.append_nil, List.append_nil] at ht
  let source := String.ofList (tallOperand n ++ additions (n - 1))
  have tokens_eq : (Cursor.start source).pending = q.tokens := by
    rw [Cursor.start, String.toList_ofList, ht]
  have parsed := parse_of_phrase tokens_eq hq.lowest (hn ▸ allowed)
  refine ⟨source, by rw [parsed], .expressionStatement q.tree, ?_, ?_⟩
  · rw [parsed]
    exact List.mem_singleton_self _
  · rw [hn, maxHeight_succ, ← hheight]
    exact hheight'

/-- **Trees keep to the limit on nesting exactly up to a limit of two.** -/
theorem heights_le_maxDepth_iff (config : Config) :
    (∀ source, ∀ s ∈ (parse config source).program.statements,
        s.expr.height ≤ config.maxDepth) ↔
      config.maxDepth ≤ 2 := by
  constructor
  · intro h
    by_contra many
    obtain ⟨source, -, s, hs, hheight⟩ := @exists_height_eq_maxHeight config (by omega)
    obtain ⟨n, hn⟩ := Nat.exists_eq_add_of_le' (by omega : 3 ≤ config.maxDepth)
    have bound := h source s hs
    rw [hheight, hn] at bound
    exact absurd (lt_maxHeight_add_three n) (not_lt.2 bound)
  · intro few source s hs
    have bound := height_le_maxHeight hs
    have small : maxHeight config.maxDepth = config.maxDepth := by
      generalize config.maxDepth = m at few
      match m, few with
      | 0, _ => rfl
      | 1, _ => rfl
      | 2, _ => rfl
    exact small ▸ bound

/-- A limit of three admits a tree of height four. -/
theorem height_of_two_minus_signs :
    (parse ⟨3⟩ "--a+b").errors = [] ∧
      ¬ ∀ s ∈ (parse ⟨3⟩ "--a+b").program.statements, s.expr.height ≤ 3 := by
  decide +kernel

end MonkeyLang
