import MonkeyLang.Proofs.RoundTrip.Expression

/-!
# Integers in decimal

A number behind minus signs is parsed exactly if its digits denote no more than the largest
integer, however many signs there are within the limit on nesting (`parse_signed_number`). Every
sign is an operator that is read before the number, and the number is checked without it.

So what can be written in decimal is bounded alike on both sides of zero, although the advice on a
refused number promises the integers of a signed word of 64 bits, of which the least has no
counterpart above zero. The promise is broken for that one and kept for all others
(`keepsPromise_iff`).
-/

namespace MonkeyLang

/-! ### Digits -/

/-- The decimal digits of a number denote it. -/
theorem decimalValue_repr (n : Nat) : decimalValue n.repr.toList = n := by
  rw [Nat.toList_repr]
  exact Nat.ofDigitChars_ten_toDigits

theorem isDigit_of_mem_repr {n : Nat} {c : Char} (h : c ∈ n.repr.toList) : c.isDigit = true := by
  rw [Nat.toList_repr] at h
  exact Nat.isDigit_of_mem_toDigits (by decide) (by decide) h

theorem toList_repr_ne_nil (n : Nat) : n.repr.toList ≠ [] := by
  rw [Nat.toList_repr]
  exact Nat.toDigits_ne_nil

/-- How many minus signs the decimal text of an integer has. -/
def signCount (v : Int) : Nat := if v < 0 then 1 else 0

/-- The decimal text of an integer is that of its absolute value, with a sign if it is negative. -/
theorem toList_repr_int (v : Int) :
    v.repr.toList = List.replicate (signCount v) '-' ++ v.natAbs.repr.toList := by
  cases v with
  | ofNat n =>
    have unsigned : signCount (Int.ofNat n) = 0 := if_neg (Int.not_lt.2 (Int.natCast_nonneg n))
    rw [unsigned]
    rfl
  | negSucc n =>
    have signed : signCount (Int.negSucc n) = 1 := if_pos (Int.negSucc_lt_zero n)
    rw [signed]
    exact String.toList_append

/-! ### Numbers behind minus signs -/

/-- Minus signs in front of digits are tokens of their own. -/
theorem Cursor.exists_pending_signed {digits : List Char} (hn : digits ≠ [])
    (hd : ∀ c ∈ digits, c.isDigit = true) (k here : Nat) :
    ∃ signs : List Token, signs.length = k ∧ (∀ s ∈ signs, s.kind = .operator .minus) ∧
      (⟨here, List.replicate k '-' ++ digits⟩ : Cursor).pending =
        signs ++ [Token.spelled .integer (here + k) digits] := by
  induction k generalizing here with
  | zero =>
    have number := pending_number here hn hd (leaves_nil _)
    rw [List.append_nil, pending_nil] at number
    exact ⟨[], rfl, List.forall_mem_nil _, number⟩
  | succ k ih =>
    obtain ⟨signs, hk, hs, ht⟩ := ih (here + 1)
    have sign := @pending_operator here .minus (List.replicate k '-' ++ digits) (by simp)
    refine ⟨Token.spelled (.operator .minus) here ['-'] :: signs, congrArg (· + 1) hk,
      List.forall_mem_cons.2 ⟨rfl, hs⟩, ?_⟩
    rw [Nat.add_assoc, Nat.add_comm 1 k] at ht
    exact sign.trans (congrArg _ ht)

namespace Phrase

/-- A phrase behind minus signs. -/
def signed (p : Phrase) (signs : List Token) : Phrase := signs.foldr (unary .minus) p

variable {p : Phrase} {signs : List Token}

theorem tokens_signed : (p.signed signs).tokens = signs ++ p.tokens := by
  induction signs with
  | nil => rfl
  | cons s signs ih => exact congrArg (s :: ·) ih

theorem cost_signed : (p.signed signs).cost = signs.length + p.cost := by
  induction signs with
  | nil => exact (Nat.zero_add _).symm
  | cons s signs ih =>
    rw [List.length_cons, Nat.add_right_comm, ← ih]
    rfl

theorem tree_signed : (p.signed signs).tree = (Expr.unary .minus)^[signs.length] p.tree := by
  induction signs with
  | nil => rfl
  | cons s signs ih =>
    rw [List.length_cons, Function.iterate_succ_apply', ← ih]
    rfl

theorem TighterThan.signed (hp : p.TighterThan .unary)
    (hs : ∀ s ∈ signs, s.kind = .operator .minus) : (p.signed signs).TighterThan .unary := by
  induction signs with
  | nil => exact hp
  | cons s signs ih =>
    obtain ⟨hk, hs⟩ := List.forall_mem_cons.1 hs
    exact ⟨hk, rfl, ih hs⟩

end Phrase

/-- A number that is too large is refused behind minus signs as it is without them. -/
theorem Frame.readExpression_signed_tooLarge (f : Frame) {signs : List Token}
    (hs : ∀ s ∈ signs, s.kind = .operator .minus) {t : Token} (ht : t.kind = .integer)
    (hv : ¬ decimalValue t.text.toList ≤ maxInteger) (rest : List Token) {levels : Nat}
    (hl : signs.length < levels) (floor : Precedence) :
    f.readExpression levels floor (signs ++ t :: rest) =
      .error ⟨⟨.integerTooLarge t.text, t.span⟩, t :: rest⟩ := by
  -- Each sign takes one level, and what it is applied to is read with a floor of its own.
  induction signs generalizing levels floor with
  | nil =>
    obtain ⟨levels, rfl⟩ := Nat.exists_eq_add_one_of_ne_zero (Nat.ne_zero_of_lt hl)
    refine f.readExpression_of_readOperand_error ?_
    rw [List.nil_append, readOperand, ht]
    exact if_neg hv
  | cons s signs ih =>
    obtain ⟨hk, hs⟩ := List.forall_mem_cons.1 hs
    obtain ⟨levels, rfl⟩ := Nat.exists_eq_add_one_of_ne_zero (Nat.ne_zero_of_lt hl)
    have behind := ih hs (Nat.lt_of_succ_lt_succ hl) .unary
    refine f.readExpression_of_readOperand_error ?_
    rw [List.cons_append, readOperand, hk]
    show Except.map _ (f.readExpression levels .unary (signs ++ t :: rest)) = _
    rw [behind]
    rfl

/-- Tokens that are a number behind minus signs are parsed exactly if the number is not too
large. -/
theorem parse_of_signed {config : Config} {source : String} {signs : List Token} {t : Token}
    (h : (Cursor.start source).pending = signs ++ [t])
    (hs : ∀ s ∈ signs, s.kind = .operator .minus) (ht : t.kind = .integer)
    (hk : signs.length < config.maxDepth) :
    parse config source =
      if decimalValue t.text.toList ≤ maxInteger then
        ⟨⟨[.expressionStatement ((Expr.unary .minus)^[signs.length]
          (.integer (decimalValue t.text.toList) t.text))]⟩, []⟩
      else ⟨⟨[]⟩, [⟨.integerTooLarge t.text, t.span⟩]⟩ := by
  split
  · rename_i hv
    let p : Phrase := .integer t
    have hp : p.TighterThan .unary := ⟨ht, hv⟩
    have tokens_eq : (p.signed signs).tokens = signs ++ [t] := Phrase.tokens_signed
    rw [parse_of_phrase (h.trans tokens_eq.symm) (hp.signed hs).lowest
      (Phrase.cost_signed.le.trans hk), Phrase.tree_signed]
    rfl
  · rename_i hv
    obtain ⟨first, more, opens, starts⟩ : ∃ first more, signs ++ [t] = first :: more ∧
        first.kind.startsExpression = true := by
      rcases signs with - | ⟨s, signs⟩
      · exact ⟨t, [], rfl, by rw [ht]; rfl⟩
      · have minus : s.kind = .operator .minus := hs s List.mem_cons_self
        exact ⟨s, signs ++ [t], rfl, by rw [minus]; rfl⟩
    have refused :=
      (sourceFrame config source).readExpression_signed_tooLarge hs ht hv [] hk .lowest
    rw [opens] at refused
    have spent : resume [t] = [] := by
      refine resume_eq_nil (List.forall_mem_singleton.2 ?_)
      rw [ht]
      exact ⟨rfl, TokenKind.noConfusion⟩
    exact parse_of_readExpression_error (h.trans opens) starts refused spent

/-- **A number behind minus signs is parsed** exactly if its digits denote no more than the largest
integer, as long as the limit on nesting allows the signs. -/
theorem parse_signed_number {config : Config} {digits : List Char} (hn : digits ≠ [])
    (hd : ∀ c ∈ digits, c.isDigit = true) {k : Nat} (hk : k < config.maxDepth) :
    parse config (String.ofList (List.replicate k '-' ++ digits)) =
      if decimalValue digits ≤ maxInteger then
        ⟨⟨[.expressionStatement ((Expr.unary .minus)^[k]
          (.integer (decimalValue digits) (String.ofList digits)))]⟩, []⟩
      else ⟨⟨[]⟩, [⟨.integerTooLarge (String.ofList digits), ⟨k, k + byteLength digits⟩⟩]⟩ := by
  obtain ⟨signs, rfl, hs, ht⟩ := Cursor.exists_pending_signed hn hd k 0
  rw [Nat.zero_add, ← String.toList_ofList (l := List.replicate signs.length '-' ++ digits)] at ht
  have parsed := parse_of_signed ht hs rfl hk
  rwa [Token.spelled, String.toList_ofList] at parsed

/-- Zeros in front count for nothing, and the text of the literal keeps them. -/
example :
    parse {} "--009223372036854775807" =
        ⟨⟨[.expressionStatement (.unary .minus (.unary .minus
          (.integer 9223372036854775807 "009223372036854775807")))]⟩, []⟩ ∧
      parse {} "--009223372036854775808" =
        ⟨⟨[]⟩, [⟨.integerTooLarge "009223372036854775808", ⟨2, 23⟩⟩]⟩ := by
  constructor <;> decide +kernel

/-- The expression that the decimal text of an integer stands for. -/
def Expr.ofInt (v : Int) : Expr :=
  (unary .minus)^[signCount v] (integer v.natAbs v.natAbs.repr)

/-- **The decimal text of an integer is parsed** exactly if its absolute value is not too large. -/
theorem parse_repr (v : Int) :
    parse {} v.repr =
      if v.natAbs ≤ maxInteger then ⟨⟨[.expressionStatement (.ofInt v)]⟩, []⟩
      else ⟨⟨[]⟩, [⟨.integerTooLarge v.natAbs.repr,
        ⟨signCount v, signCount v + v.natAbs.repr.utf8ByteSize⟩⟩]⟩ := by
  have few : signCount v < ({} : Config).maxDepth := by
    rw [signCount]
    split <;> decide
  have parsed := parse_signed_number (toList_repr_ne_nil v.natAbs)
    (fun _ ↦ isDigit_of_mem_repr) few
  rwa [← toList_repr_int, String.ofList_toList, String.ofList_toList, decimalValue_repr,
    byteLength_toList] at parsed

/-! ### The integers that are promised -/

/-- The least integer that the advice on a refused number promises. -/
def leastPromised : Int := -2 ^ 63

/-- The greatest integer that it promises. -/
def greatestPromised : Int := 2 ^ 63 - 1

/-- The advice names both. -/
theorem help?_integerTooLarge (literal : String) :
    (ParseError.Cause.integerTooLarge literal).help? =
      some ("integers must lie between " ++ leastPromised.repr ++ " and " ++
        greatestPromised.repr) := by
  have named : "integers must lie between -9223372036854775808 and 9223372036854775807" =
      "integers must lie between " ++ leastPromised.repr ++ " and " ++ greatestPromised.repr := by
    decide +kernel
  exact congrArg some named

/-- An integer is promised if it lies between them. -/
def IsPromised (v : Int) : Prop := leastPromised ≤ v ∧ v ≤ greatestPromised

instance (v : Int) : Decidable (IsPromised v) :=
  inferInstanceAs (Decidable (_ ∧ _))

/-- The integers that are promised are those whose absolute value is not too large, and one more. -/
theorem isPromised_iff {v : Int} : IsPromised v ↔ v.natAbs ≤ maxInteger ∨ v = leastPromised := by
  have largest : maxInteger = 2 ^ 63 - 1 := rfl
  rw [IsPromised, leastPromised, greatestPromised, largest]
  omega

/-- The integer that a literal denotes, by itself or with its sign changed by a minus. -/
def Expr.signedLiteral? : Expr → Option Int
  | integer value _ => some value
  | unary .minus (integer value _) => some (-value)
  | _ => none

theorem Expr.signedLiteral?_ofInt (v : Int) : (ofInt v).signedLiteral? = some v := by
  by_cases negative : v < 0
  · have signed : signCount v = 1 := if_pos negative
    rw [ofInt, signed]
    exact congrArg some (by omega)
  · have unsigned : signCount v = 0 := if_neg negative
    rw [ofInt, unsigned]
    exact congrArg some (Int.natAbs_of_nonneg (Int.not_lt.1 negative))

/-- What the advice means for an integer whose decimal text is parsed with the usual settings. There
are no errors exactly if the integer is promised. Then the program is one literal, with or without
a minus, that denotes it. Otherwise the only error is that its digits are too large. -/
structure KeepsPromise (v : Int) : Prop where
  clean_iff : (parse {} v.repr).errors = [] ↔ IsPromised v
  denotes : IsPromised v →
    ∃ e, (parse {} v.repr).program = ⟨[.expressionStatement e]⟩ ∧ e.signedLiteral? = some v
  refused : ¬ IsPromised v →
    ∃ span, (parse {} v.repr).errors = [⟨.integerTooLarge v.natAbs.repr, span⟩]

/-- **The promise is kept for every integer but the least that is promised**, whose digits are too
large by one. -/
theorem keepsPromise_iff (v : Int) : KeepsPromise v ↔ v ≠ leastPromised := by
  have parsed := parse_repr v
  constructor
  · rintro ⟨clean_iff, -, -⟩ rfl
    have clean := clean_iff.2 (by decide)
    rw [parsed, if_neg (by decide)] at clean
    cases clean
  · intro hv
    have promised_iff : IsPromised v ↔ v.natAbs ≤ maxInteger :=
      isPromised_iff.trans (or_iff_left hv)
    by_cases h : IsPromised v
    · rw [if_pos (promised_iff.1 h)] at parsed
      exact {
        clean_iff := by rw [parsed]; exact iff_of_true rfl h
        denotes := fun _ ↦ ⟨.ofInt v, by rw [parsed], Expr.signedLiteral?_ofInt v⟩
        refused := fun hn ↦ absurd h hn }
    · rw [if_neg (promised_iff.not.1 h)] at parsed
      exact {
        clean_iff := by rw [parsed]; exact iff_of_false (List.cons_ne_nil _ _) h
        denotes := fun hp ↦ absurd hp h
        refused := fun _ ↦ ⟨_, by rw [parsed]⟩ }

/-- The least integer that is promised is refused, with advice that promises it. -/
theorem parse_least_promised :
    parse {} "-9223372036854775808" =
        ⟨⟨[]⟩, [⟨.integerTooLarge "9223372036854775808", ⟨1, 20⟩⟩]⟩ ∧
      (ParseError.Cause.integerTooLarge "9223372036854775808").help? =
        some ("integers must lie between " ++ leastPromised.repr ++ " and " ++
          greatestPromised.repr) ∧
      leastPromised = -9223372036854775808 ∧ ¬ KeepsPromise (-9223372036854775808) := by
  have refused : parse {} "-9223372036854775808" =
      ⟨⟨[]⟩, [⟨.integerTooLarge "9223372036854775808", ⟨1, 20⟩⟩]⟩ := by decide +kernel
  have text_eq : (-9223372036854775808 : Int).repr = "-9223372036854775808" := by decide +kernel
  refine ⟨refused, help?_integerTooLarge _, rfl, fun kept ↦ ?_⟩
  have clean := kept.clean_iff.2 (by decide)
  rw [text_eq, refused] at clean
  cases clean

end MonkeyLang
