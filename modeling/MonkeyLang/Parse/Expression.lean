import MonkeyLang.Parse.Reading
import MonkeyLang.Text.Decimal
import MonkeyLang.Tree.Expr

/-!
# Reading expressions

An expression is an operand followed by as many binary operators as bind tighter than the floor
that its caller sets, each with a right operand whose own floor is that operator's strength. So
equal operators group to the left, and a tighter one goes to the right operand.

The nesting limit is spent as a number of levels. An expression costs one level and passes the
rest on to its operand; each operator that extends it costs one more, because it pushes what was
read so far one level down. Whoever has no level left fails. Levels are an argument, so every
reader leaves its caller's own count untouched, and they are what the recursion descends on.
-/

namespace MonkeyLang

namespace Frame

variable (f : Frame)

/-- An integer token denotes its value, if that is not too large. -/
def readInteger (t : Token) (rest : List Token) : Reading Expr :=
  let value := decimalValue t.text.toList
  if value ≤ maxInteger then .ok ⟨.integer value t.text, t, rest⟩
  else .error ⟨⟨.integerTooLarge t.text, t.span⟩, t :: rest⟩

/-- An operand: a leaf, a unary operator with its operand, or an expression in parentheses. The
expressions inside are read by `inner`. -/
def readOperand (inner : Precedence → List Token → Reading Expr) : List Token → Reading Expr
  | [] => .error (f.noOperand [])
  | t :: rest =>
    match t.kind with
    | .identifier => .ok ⟨.identifier t.text, t, rest⟩
    | .integer => readInteger t rest
    | .keyword .trueWord => .ok ⟨.boolean true t.text, t, rest⟩
    | .keyword .falseWord => .ok ⟨.boolean false t.text, t, rest⟩
    | .operator op =>
      if op.isUnary then (inner .unary rest).map (.map (.unary op))
      else .error (f.noOperand (t :: rest))
    | .punctuation .lparen =>
      match inner .lowest rest with
      | .error e => .error e
      | .ok e => (f.expect (.punctuation .rparen) e.last e.rest).map (.map fun _ ↦ e.value)
    | _ => .error (f.noOperand (t :: rest))

end Frame

/-- The binary operator at the front of the tokens that binds tighter than `floor`, with the
tokens behind it. -/
def binaryAt? (floor : Precedence) : List Token → Option (Operator × List Token)
  | [] => none
  | t :: rest =>
    match t.kind with
    | .operator op => if op.isBinary ∧ floor < op.precedence then some (op, rest) else none
    | _ => none

namespace Frame

variable (f : Frame)

mutual

/-- An expression whose operators bind tighter than `floor`, nested at most `levels` deep. -/
def readExpression : Nat → Precedence → List Token → Reading Expr
  | 0, _, tokens => .error (f.tooDeep tokens tokens)
  | levels + 1, floor, tokens =>
    match f.readOperand (readExpression levels) tokens with
    | .error e => .error e
    | .ok left => extend levels floor left

/-- Extend what was read by the binary operators behind it that bind tighter than `floor`. -/
def extend : Nat → Precedence → Parsed Expr → Reading Expr
  | 0, floor, left =>
    match binaryAt? floor left.rest with
    | none => .ok left
    | some _ => .error (f.tooDeep left.rest left.stand)
  | levels + 1, floor, left =>
    match binaryAt? floor left.rest with
    | none => .ok left
    | some (op, rest) =>
      match readExpression levels op.rightFloor rest with
      | .error e => .error e
      | .ok right => extend levels floor (right.map (.binary op left.value))

end

/-! ### Reading stays inside the tokens -/

/-- An operand is read inside the tokens, if the expressions inside it are. -/
theorem stand_readOperand_suffix {inner : Precedence → List Token → Reading Expr}
    (hi : ∀ floor tokens, (inner floor tokens).stand <:+ tokens) (tokens : List Token) :
    (f.readOperand inner tokens).stand <:+ tokens := by
  cases tokens with
  | nil => exact List.suffix_refl _
  | cons t rest =>
    rw [readOperand]
    split
    · exact List.suffix_refl _
    · rw [readInteger]
      split <;> exact List.suffix_refl _
    · exact List.suffix_refl _
    · exact List.suffix_refl _
    · split
      · rw [Reading.stand_map]
        exact (hi _ rest).trans (List.suffix_cons t rest)
      · exact List.suffix_refl _
    · have inside := (hi .lowest rest).trans (List.suffix_cons t rest)
      split
      · rename_i e he
        rw [he] at inside
        exact inside
      · rename_i e he
        rw [he] at inside
        rw [Reading.stand_map]
        exact (f.stand_expect_suffix _ (by decide) e.last e.rest).trans inside
    · exact List.suffix_refl _

/-- A phrase is extended exactly by a binary operator token that binds tighter than the floor,
and what is behind the operator is behind that token. -/
theorem binaryAt?_eq_some_iff {floor : Precedence} {tokens rest : List Token} {op : Operator} :
    binaryAt? floor tokens = some (op, rest) ↔
      ∃ t, tokens = t :: rest ∧ t.kind = .operator op ∧ op.isBinary = true ∧
        floor < op.precedence := by
  cases tokens with
  | nil => simp [binaryAt?]
  | cons t ts =>
    rw [binaryAt?]
    split
    · rename_i op' hk
      simp only [Option.ite_none_right_eq_some, Option.some.injEq, Prod.mk.injEq,
        List.cons.injEq]
      constructor
      · rintro ⟨⟨hb, hf⟩, rfl, rfl⟩
        exact ⟨t, ⟨rfl, rfl⟩, hk, hb, hf⟩
      · rintro ⟨u, ⟨rfl, rfl⟩, hu, hb, hf⟩
        rw [hk] at hu
        obtain rfl := TokenKind.operator.inj hu
        exact ⟨⟨hb, hf⟩, rfl, rfl⟩
    · rename_i hk
      simp only [reduceCtorEq, false_iff, not_exists, not_and]
      rintro u hu huk
      obtain ⟨rfl, _⟩ := List.cons.inj hu
      exact absurd huk (hk op)

/-- An expression is read inside the tokens, and so is what extends a phrase. -/
theorem stand_suffix (levels : Nat) :
    (∀ floor tokens, (f.readExpression levels floor tokens).stand <:+ tokens) ∧
      ∀ floor left, (f.extend levels floor left).stand <:+ left.stand := by
  induction levels with
  | zero =>
    refine ⟨fun floor tokens ↦ List.suffix_refl _, fun floor left ↦ ?_⟩
    rw [extend]
    split <;> exact List.suffix_refl _
  | succ levels ih =>
    obtain ⟨reads, extended⟩ := ih
    constructor
    · intro floor tokens
      have inside := f.stand_readOperand_suffix reads tokens
      rw [readExpression]
      split
      · rename_i e he
        rwa [he] at inside
      · rename_i left hl
        rw [hl] at inside
        exact (extended floor left).trans inside
    · intro floor left
      rw [extend]
      split
      · exact List.suffix_refl _
      · rename_i op rest h
        obtain ⟨t, ht, -⟩ := binaryAt?_eq_some_iff.1 h
        have inside : (f.readExpression levels op.rightFloor rest).stand <:+ left.stand := by
          refine (reads _ rest).trans ?_
          rw [Parsed.stand, ht]
          exact (List.suffix_cons t rest).trans (List.suffix_cons left.last _)
        split
        · rename_i e he
          rwa [he] at inside
        · rename_i right hr
          rw [hr] at inside
          exact (extended floor _).trans inside

/-- An expression is read inside the tokens. -/
theorem stand_readExpression_suffix (levels : Nat) (floor : Precedence) (tokens : List Token) :
    (f.readExpression levels floor tokens).stand <:+ tokens :=
  (f.stand_suffix levels).1 floor tokens

end Frame

end MonkeyLang
