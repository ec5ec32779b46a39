import MonkeyLang.Proofs.Reading.Program

/-!
# What the limit on nesting decides

The limit is asked when an expression begins and when an operator extends one, and all that it can
do there is refuse. So a text that is read twice, under a lower limit and under a higher one, is
read alike for as long as the lower limit refuses nothing, whatever else may be wrong with the text.
`Reading.KeptBy` says this of two readings, and each reader keeps it.

Each level that an expression takes is paid for with a token: that of the operator, sign or
parenthesis in front of it. So a limit above the number of tokens refuses nothing.

`parse_limit_only_refuses` puts the two together for texts.
-/

namespace MonkeyLang

/-- Whether a cause is the limit on nesting. -/
def ParseError.Cause.isTooDeep : Cause → Bool
  | nestingTooDeep _ => true
  | _ => false

/-- The frame of the same text under another limit. -/
def Frame.withLimit (f : Frame) (limit : Nat) : Frame := ⟨⟨limit⟩, f.stop⟩

namespace Reading

variable {α β : Type}

/-- Whether reading failed on the limit on nesting. -/
def isTooDeep : Reading α → Bool
  | .ok _ => false
  | .error e => e.error.cause.isTooDeep

@[simp] theorem isTooDeep_map (g : Parsed α → Parsed β) (r : Reading α) :
    Reading.isTooDeep (r.map g) = r.isTooDeep := by
  cases r <;> rfl

/-- A reading is kept by another one that is the same, unless it failed on the limit. -/
def KeptBy (r r' : Reading α) : Prop := r.isTooDeep = false → r' = r

theorem KeptBy.refl (r : Reading α) : r.KeptBy r := fun _ ↦ rfl

theorem KeptBy.map {r r' : Reading α} (h : r.KeptBy r') (g : Parsed α → Parsed β) :
    Reading.KeptBy (r.map g) (r'.map g) := by
  intro kept
  rw [isTooDeep_map] at kept
  rw [h kept]

/-- A reading that is kept and did not fail is found again. -/
theorem KeptBy.eq_ok {r r' : Reading α} (h : r.KeptBy r') {p : Parsed α} (hr : r = .ok p) :
    r' = .ok p := by
  subst hr
  exact h rfl

/-- So is a failure on anything but the limit. -/
theorem KeptBy.eq_error {r r' : Reading α} (h : r.KeptBy r') {e : Failure} (hr : r = .error e)
    (he : e.error.cause.isTooDeep = false) : r' = .error e := by
  subst hr
  exact h he

end Reading

namespace Frame

open Reading

variable (f : Frame)

/-- An operator that extends a phrase has its right operand read, and the loop goes on from
there. -/
theorem extend_of_binaryAt? {levels : Nat} {floor : Precedence} {left : Parsed Expr} {op : Operator}
    {rest : List Token} (h : binaryAt? floor left.rest = some (op, rest)) :
    f.extend (levels + 1) floor left =
      match f.readExpression levels op.rightFloor rest with
      | .error e => .error e
      | .ok right => f.extend levels floor (right.map (.binary op left.value)) := by
  rcases hr : f.readExpression levels op.rightFloor rest with e | right <;>
    simp only [extend, h, hr]

/-- What is expected does not depend on the limit. -/
theorem expect_withLimit (limit : Nat) (kind : TokenKind) (last : Token) (rest : List Token) :
    (f.withLimit limit).expect kind last rest = f.expect kind last rest := rfl

/-! ### A higher limit keeps what a lower one does not refuse -/

section Raise

variable (limit : Nat)

/-- An operand is kept, if the expressions inside it are. -/
theorem readOperand_keptBy {inner inner' : Precedence → List Token → Reading Expr}
    (hi : ∀ floor tokens, (inner floor tokens).KeptBy (inner' floor tokens)) (tokens : List Token) :
    (f.readOperand inner tokens).KeptBy ((f.withLimit limit).readOperand inner' tokens) := by
  rcases tokens with - | ⟨t, rest⟩
  · exact .refl _
  rw [readOperand, readOperand]
  split
  -- Behind a unary operator and inside parentheses there is an expression.
  case h_5 =>
    split
    · exact (hi .unary rest).map _
    · exact .refl _
  case h_6 =>
    intro kept
    rcases hr : inner .lowest rest with e | p
    · simp only [hr] at kept ⊢
      rw [(hi .lowest rest).eq_error hr kept]
    · simp only [(hi .lowest rest).eq_ok hr]
      rfl
  all_goals exact .refl _

/-- **An expression is kept by more levels**, and so is what extends a phrase. -/
theorem readExpression_keptBy {levels levels' : Nat} (h : levels ≤ levels') :
    (∀ floor tokens, (f.readExpression levels floor tokens).KeptBy
      ((f.withLimit limit).readExpression levels' floor tokens)) ∧
    ∀ floor left, (f.extend levels floor left).KeptBy
      ((f.withLimit limit).extend levels' floor left) := by
  induction levels generalizing levels' with
  | zero =>
    constructor
    · intro floor tokens kept
      rw [readExpression] at kept
      cases kept
    · intro floor left kept
      rcases hop : binaryAt? floor left.rest with - | taken
      · rw [extend_of_binaryAt?_eq_none _ hop, extend_of_binaryAt?_eq_none _ hop]
      · rw [extend, hop] at kept
        cases kept
  | succ levels ih =>
    obtain ⟨levels', rfl⟩ := Nat.exists_eq_add_one.2 (Nat.zero_lt_of_lt h)
    obtain ⟨reads, extended⟩ := ih (Nat.le_of_succ_le_succ h)
    constructor
    · intro floor tokens kept
      have operand := f.readOperand_keptBy limit reads tokens
      rw [readExpression] at kept ⊢
      rcases hr : f.readOperand (f.readExpression levels) tokens with e | left
      · simp only [hr] at kept
        rw [readExpression, hr, operand.eq_error hr kept]
      · simp only [hr] at kept
        rw [readExpression, hr, operand.eq_ok hr]
        exact extended floor left kept
    · intro floor left kept
      rcases hop : binaryAt? floor left.rest with - | ⟨op, rest⟩
      · rw [extend_of_binaryAt?_eq_none _ hop, extend_of_binaryAt?_eq_none _ hop]
      · rw [extend_of_binaryAt? _ hop] at kept
        rw [extend_of_binaryAt? _ hop, extend_of_binaryAt? _ hop]
        rcases hr : f.readExpression levels op.rightFloor rest with e | right
        · rw [hr] at kept
          rw [(reads _ _).eq_error hr kept]
        · rw [hr] at kept
          rw [(reads _ _).eq_ok hr]
          exact extended floor _ kept

variable {limit} (hl : f.config.maxDepth ≤ limit)

include hl

/-- The value of a statement is kept by a higher limit. -/
theorem readValue_keptBy (tokens : List Token) :
    (f.readValue tokens).KeptBy ((f.withLimit limit).readValue tokens) :=
  ((f.readExpression_keptBy limit hl).1 .lowest tokens).map _

/-- **A statement is kept by a higher limit.** -/
theorem readStatement_keptBy (first : Token) (rest : List Token) :
    (f.readStatement first rest).KeptBy ((f.withLimit limit).readStatement first rest) := by
  rw [readStatement, readStatement]
  split
  · rw [readLet, readLet, expect_withLimit]
    split
    · exact .refl _
    · rw [expect_withLimit]
      split
      · exact .refl _
      · exact (f.readValue_keptBy hl _).map _
  · exact (f.readValue_keptBy hl rest).map _
  · exact (f.readValue_keptBy hl (first :: rest)).map _

/-- **A program is kept by a higher limit**, if the lower one refuses none of its statements. -/
theorem program_withLimit {tokens : List Token}
    (h : ∀ e ∈ f.errors tokens, e.cause.isTooDeep = false) :
    (f.withLimit limit).statements tokens = f.statements tokens ∧
      (f.withLimit limit).errors tokens = f.errors tokens := by
  induction tokens using program_induction f with
  | none_left => simp only [statements_nil, errors_nil, and_self]
  | read first more p hr ih =>
    have again := (f.readStatement_keptBy hl first more).eq_ok hr
    rw [errors_cons_of_ok hr] at h
    obtain ⟨statements, errors⟩ := ih h
    rw [statements_cons_of_ok hr, statements_cons_of_ok again, errors_cons_of_ok hr,
      errors_cons_of_ok again, statements, errors]
    exact ⟨rfl, rfl⟩
  | failed first more e hr ih =>
    rw [errors_cons_of_error hr, List.forall_mem_cons] at h
    have again := (f.readStatement_keptBy hl first more).eq_error hr h.1
    obtain ⟨statements, errors⟩ := ih h.2
    rw [statements_cons_of_error hr, statements_cons_of_error again, errors_cons_of_error hr,
      errors_cons_of_error again, statements, errors]
    exact ⟨rfl, rfl⟩

end Raise

/-! ### A limit above the number of tokens refuses nothing -/

/-- What is left behind a phrase is fewer tokens than it was read off. -/
theorem length_rest_lt_of_stand_suffix {α : Type} {r : Reading α} {tokens : List Token}
    (h : r.stand <:+ tokens) {p : Parsed α} (hr : r = .ok p) : p.rest.length < tokens.length := by
  subst hr
  exact h.length_le

/-- An operand is not refused, if expressions are not refused in front of fewer tokens. -/
theorem readOperand_not_tooDeep {inner : Precedence → List Token → Reading Expr}
    {tokens : List Token}
    (hi : ∀ floor rest, rest.length < tokens.length → (inner floor rest).isTooDeep = false) :
    (f.readOperand inner tokens).isTooDeep = false := by
  have no_operand : ∀ ts, (f.noOperand ts).error.cause.isTooDeep = false := by
    intro ts
    rw [noOperand]
    simp only
    split <;> rfl
  rcases tokens with - | ⟨t, rest⟩
  · exact no_operand []
  have inside := fun floor ↦ hi floor rest (Nat.lt_succ_self _)
  rw [readOperand]
  split
  -- An integer may be too large, and behind a unary operator and inside parentheses there is an
  -- expression.
  case h_2 =>
    rw [readInteger]
    split <;> rfl
  case h_5 =>
    split
    · rw [isTooDeep_map]
      exact inside .unary
    · exact no_operand _
  case h_6 =>
    rcases hr : inner .lowest rest with e | p
    · have := inside .lowest
      rwa [hr] at this
    · show Reading.isTooDeep ((f.expect (.punctuation .rparen) p.last p.rest).map _) = false
      rw [isTooDeep_map, expect]
      split <;> rfl
  case h_7 => exact no_operand _
  all_goals rfl

/-- **An expression is not refused with more levels than there are tokens**, and neither is what
extends a phrase, with more levels than there are tokens behind it. -/
theorem readExpression_not_tooDeep (levels : Nat) :
    (∀ floor tokens, tokens.length < levels →
      (f.readExpression levels floor tokens).isTooDeep = false) ∧
    ∀ floor left, left.rest.length < levels → (f.extend levels floor left).isTooDeep = false := by
  induction levels with
  | zero =>
    exact ⟨fun _ _ h ↦ absurd h (Nat.not_lt_zero _), fun _ _ h ↦ absurd h (Nat.not_lt_zero _)⟩
  | succ levels ih =>
    obtain ⟨reads, extended⟩ := ih
    constructor
    · intro floor tokens few
      have operand : (f.readOperand (f.readExpression levels) tokens).isTooDeep = false :=
        f.readOperand_not_tooDeep fun floor rest fewer ↦ reads floor rest (by omega)
      have inside := f.stand_readOperand_suffix (f.stand_readExpression_suffix levels) tokens
      rw [readExpression]
      rcases hr : f.readOperand (f.readExpression levels) tokens with e | left
      · rwa [hr] at operand
      · have := length_rest_lt_of_stand_suffix inside hr
        exact extended floor left (by omega)
    · intro floor left few
      rcases hop : binaryAt? floor left.rest with - | ⟨op, rest⟩
      · rw [extend_of_binaryAt?_eq_none _ hop]
        rfl
      · obtain ⟨sign, behind, -⟩ := binaryAt?_eq_some_iff.1 hop
        rw [behind, List.length_cons] at few
        rw [extend_of_binaryAt? _ hop]
        have operand := reads op.rightFloor rest (by omega)
        have inside := f.stand_readExpression_suffix levels op.rightFloor rest
        rcases hr : f.readExpression levels op.rightFloor rest with e | right
        · rwa [hr] at operand
        · have := length_rest_lt_of_stand_suffix inside hr
          refine extended floor _ ?_
          show right.rest.length < levels
          omega

/-- A statement is not refused under a limit above the number of its tokens. -/
theorem readStatement_not_tooDeep {first : Token} {rest : List Token}
    (room : (first :: rest).length < f.config.maxDepth) :
    (f.readStatement first rest).isTooDeep = false := by
  have value : ∀ {tokens : List Token}, tokens <:+ first :: rest →
      (f.readValue tokens).isTooDeep = false := by
    intro tokens inside
    rw [readValue, isTooDeep_map]
    exact (f.readExpression_not_tooDeep _).1 _ _ (inside.length_le.trans_lt room)
  have expected : ∀ {kind last ts e}, f.expect kind last ts = .error e →
      e.error.cause.isTooDeep = false := by
    intro kind last ts e he
    rw [expect] at he
    split at he
    · cases he
    · obtain rfl := Except.error.inj he
      rfl
  rw [readStatement]
  split
  · rw [readLet]
    split
    · rename_i e he
      exact expected he
    · rename_i name hn
      split
      · rename_i e he
        exact expected he
      · rename_i sign hs
        rw [isTooDeep_map]
        obtain ⟨t, behind, rfl, -, rfl⟩ := (f.expect_eq_ok_iff (by decide)).1 hn
        obtain ⟨u, behind', hr, -, rfl⟩ := (f.expect_eq_ok_iff (by decide)).1 hs
        obtain rfl : behind = u :: behind' := hr
        exact value (List.suffix_append [first, t, u] behind')
  · rw [isTooDeep_map]
    exact value (List.suffix_cons first rest)
  · rw [isTooDeep_map]
    exact value (List.suffix_refl _)

variable {f} in
/-- **A program is not refused under a limit above the number of its tokens.** -/
theorem errors_not_tooDeep {tokens : List Token} (room : tokens.length < f.config.maxDepth) :
    ∀ e ∈ f.errors tokens, e.cause.isTooDeep = false := by
  induction tokens using program_induction f with
  | none_left => simp only [errors_nil, List.not_mem_nil, IsEmpty.forall_iff, implies_true]
  | read first more p hr ih =>
    have fewer := (rest_suffix_of_readStatement hr).trans (List.suffix_cons first more)
    rw [errors_cons_of_ok hr]
    exact ih (fewer.length_le.trans_lt room)
  | failed first more e hr ih =>
    have fewer := (resume_suffix_of_readStatement hr).trans (List.suffix_cons first more)
    have here := f.readStatement_not_tooDeep room
    rw [hr] at here
    rw [errors_cons_of_error hr, List.forall_mem_cons]
    exact ⟨here, ih (fewer.length_le.trans_lt room)⟩

end Frame

/-! ### Texts -/

/-- **The limit on nesting does nothing but refuse, and never refuses a short text.** What is parsed
under a limit that refuses nothing, with whatever other errors, is parsed alike under every higher
one; and a limit above the number of tokens refuses nothing. -/
theorem parse_limit_only_refuses (source : String) :
    (∀ low high : Nat, low ≤ high →
      (∀ e ∈ (parse ⟨low⟩ source).errors, e.cause.isTooDeep = false) →
        parse ⟨high⟩ source = parse ⟨low⟩ source) ∧
    ∀ limit : Nat, (tokenize source).dropLast.length < limit →
      ∀ e ∈ (parse ⟨limit⟩ source).errors, e.cause.isTooDeep = false := by
  constructor
  · intro low high hl none_refused
    rw [parse_eq] at none_refused ⊢
    obtain ⟨statements, errors⟩ := Frame.program_withLimit _ hl none_refused
    rw [parse_eq, ← statements, ← errors]
    rfl
  · intro limit room e he
    rw [dropLast_tokenize] at room
    rw [parse_eq] at he
    exact Frame.errors_not_tooDeep room e he

/-- A missing operand at the lowest limit that admits what stands in front of it: the error is the
same under every higher limit, and a limit of nine is above the number of tokens. -/
theorem parse_limit_only_refuses_missing_operand :
    (∀ e ∈ (parse ⟨3⟩ "let a = 1 + ; -b").errors, e.cause.isTooDeep = false) ∧
      parse ⟨8⟩ "let a = 1 + ; -b" = parse ⟨3⟩ "let a = 1 + ; -b" ∧
      parse ⟨3⟩ "let a = 1 + ; -b" =
        ⟨⟨[.expressionStatement (.unary .minus (.identifier "b"))]⟩,
          [⟨.noOperand (.punctuation .semicolon), ⟨12, 13⟩⟩]⟩ ∧
      (tokenize "let a = 1 + ; -b").dropLast.length < 9 ∧
      ∀ e ∈ (parse ⟨9⟩ "let a = 1 + ; -b").errors, e.cause.isTooDeep = false := by
  have none_refused : ∀ e ∈ (parse ⟨3⟩ "let a = 1 + ; -b").errors, e.cause.isTooDeep = false := by
    decide +kernel
  have room : (tokenize "let a = 1 + ; -b").dropLast.length < 9 := by decide +kernel
  obtain ⟨kept, short⟩ := parse_limit_only_refuses "let a = 1 + ; -b"
  exact ⟨none_refused, kept 3 8 (by decide) none_refused, by decide +kernel, room, short 9 room⟩

end MonkeyLang
