import Mathlib.Algebra.Group.Int.Defs
import MonkeyLang.Proofs.Lexing.Lexeme
import MonkeyLang.Proofs.Reading.Program

/-!
# Written expressions

An expression that is written down and parsed is the same expression, if the limit on nesting
allows what it needs; with a lower limit all of it is refused (`parse_render_expr`). What an
expression needs is told by its tree alone: a pair of parentheses stands around every operator
application, and nothing else adds to the nesting.

The proof goes through the grammar. The written form of an expression is an atom of it, a leaf
or a phrase in parentheses, that costs what the expression needs (`WellFormed.phraseAt`). Only
leaves can run on into what follows them (`Expr.runsOn`), so inside an expression no two lexemes
ever fuse.
-/

namespace MonkeyLang

/-- A name is a word that is not reserved. -/
def IsName (name : String) : Prop :=
  name ≠ "" ∧ name.toList.all isLetter = true ∧ Keyword.ofSpelling? name = none

instance (name : String) : Decidable (IsName name) :=
  inferInstanceAs (Decidable (_ ∧ _ ∧ _))

/-- A name is read as an identifier, where no letter follows. -/
theorem IsName.pending {name : String} (h : IsName name) (here : Nat) {rest : List Char}
    (hr : Leaves isLetter rest) :
    (⟨here, name.toList ++ rest⟩ : Cursor).pending =
      Token.spelled .identifier here name.toList ::
        (⟨here + byteLength name.toList, rest⟩ : Cursor).pending := by
  obtain ⟨hn, hl, hk⟩ := h
  have word :=
    Cursor.pending_word here (String.toList_eq_nil_iff.not.2 hn) (List.all_eq_true.1 hl) hr
  rwa [String.ofList_toList, TokenKind.ofWord, hk] at word

/-- A literal of a value is a run of digits that denotes it, and the value is not too large. -/
def IsNumeral (value : Int) (literal : String) : Prop :=
  literal ≠ "" ∧ literal.toList.all Char.isDigit = true ∧
    value = decimalValue literal.toList ∧ value ≤ 2 ^ 63 - 1

instance (value : Int) (literal : String) : Decidable (IsNumeral value literal) :=
  inferInstanceAs (Decidable (_ ∧ _ ∧ _ ∧ _))

/-- What is written in parentheses and is a phrase there, is one with them. -/
theorem Phrase.exists_parens {here there : Nat} {text rest : List Char} {p : Phrase}
    (hp : Nonterminal.expression.Derives p)
    (h : (⟨here + byteLength Punctuation.lparen.spelling.toList,
        text ++ (Punctuation.rparen.spelling.toList ++ rest)⟩ : Cursor).pending =
      p.tokens ++ (⟨there, Punctuation.rparen.spelling.toList ++ rest⟩ : Cursor).pending) :
    ∃ (opening closing : Token) (beyond : Nat),
      Nonterminal.atom.Derives (.parens opening p closing) ∧
        (⟨here, Punctuation.lparen.spelling.toList ++
            (text ++ (Punctuation.rparen.spelling.toList ++ rest))⟩ : Cursor).pending =
          (Phrase.parens opening p closing).tokens ++ (⟨beyond, rest⟩ : Cursor).pending := by
  refine ⟨.spelled (.punctuation .lparen) here Punctuation.lparen.spelling.toList,
    .spelled (.punctuation .rparen) there Punctuation.rparen.spelling.toList,
    there + byteLength Punctuation.rparen.spelling.toList, .parens rfl hp rfl, ?_⟩
  rw [Cursor.pending_punctuation, h, Cursor.pending_punctuation, Phrase.tokens]
  simp

namespace Expr

/-- The names, literals and operators in an expression are such as a text can have there. -/
def WellFormed : Expr → Prop
  | identifier name => IsName name
  | integer value literal => IsNumeral value literal
  | boolean value literal => literal = if value then "true" else "false"
  | unary op operand => (op = .bang ∨ op = .minus) ∧ operand.WellFormed
  | binary op left right =>
    op ∈ [Operator.plus, .minus, .asterisk, .slash, .lt, .gt, .eqEq, .notEq] ∧
      left.WellFormed ∧ right.WellFormed

/-- Whether an expression is well-formed can be computed. -/
instance decidableWellFormed : DecidablePred WellFormed
  | identifier name => inferInstanceAs (Decidable (IsName name))
  | integer value literal => inferInstanceAs (Decidable (IsNumeral value literal))
  | boolean value literal =>
    inferInstanceAs (Decidable (literal = if value then "true" else "false"))
  | unary op operand =>
    have := decidableWellFormed operand
    inferInstanceAs (Decidable ((op = .bang ∨ op = .minus) ∧ operand.WellFormed))
  | binary _ left right =>
    have := decidableWellFormed left
    have := decidableWellFormed right
    inferInstanceAs (Decidable (_ ∧ left.WellFormed ∧ right.WellFormed))

/-- The least limit on nesting with which the written form of an expression is parsed. -/
def need : Expr → Nat
  | unary _ operand => operand.need + 2
  | binary _ left right => max (left.need + 1) (right.need + 3)
  | _ => 1

/-- The characters that would run on with the written form of an expression: letters behind a
word, digits behind a number, and none behind a parenthesis. -/
def runsOn : Expr → Char → Bool
  | identifier _ | boolean _ _ => isLetter
  | integer _ _ => Char.isDigit
  | unary _ _ | binary _ _ _ => fun _ ↦ false

/-- The characters that the written form of an expression may open with. -/
def opensWith : Expr → Char → Bool
  | identifier _ | boolean _ _ => isLetter
  | integer _ _ => Char.isDigit
  | unary _ _ | binary _ _ _ => (· == '(')

/-- What is neither a letter nor a digit runs on with nothing. -/
theorem leaves_runsOn (e : Expr) {c : Char} (hl : isLetter c = false) (hd : c.isDigit = false)
    (rest : List Char) : Leaves e.runsOn (c :: rest) := by
  rw [leaves_cons]
  cases e with
  | identifier | boolean => exact hl
  | integer => exact hd
  | unary | binary => rfl

theorem render_unary (op : Operator) (operand : Expr) :
    (unary op operand).render.toList =
      Punctuation.lparen.spelling.toList ++
        (op.spelling.toList ++
          (operand.render.toList ++ Punctuation.rparen.spelling.toList)) := by
  simp [render, Punctuation.spelling]

theorem render_binary (op : Operator) (left right : Expr) :
    (binary op left right).render.toList =
      Punctuation.lparen.spelling.toList ++
        (left.render.toList ++
          (op.spelling.toList ++
            (right.render.toList ++ Punctuation.rparen.spelling.toList))) := by
  simp [render, Punctuation.spelling]

/-- What an expression is written with first: a letter, a digit or a parenthesis. -/
theorem WellFormed.exists_first {e : Expr} (he : e.WellFormed) :
    ∃ c cs, e.render.toList = c :: cs ∧ e.opensWith c = true := by
  have nonempty : ∀ {s : String}, s ≠ "" → ∃ c cs, s.toList = c :: cs := fun hs ↦
    List.exists_cons_of_ne_nil fun h ↦ hs (String.toList_eq_nil_iff.1 h)
  cases e with
  | identifier name =>
    obtain ⟨c, cs, h⟩ := nonempty he.1
    exact ⟨c, cs, h, List.all_eq_true.1 he.2.1 c (h ▸ List.mem_cons_self)⟩
  | integer value literal =>
    obtain ⟨c, cs, h⟩ := nonempty he.1
    exact ⟨c, cs, h, List.all_eq_true.1 he.2.1 c (h ▸ List.mem_cons_self)⟩
  | boolean value literal =>
    obtain rfl : literal = if value then "true" else "false" := he
    cases value <;> exact ⟨_, _, rfl, by decide⟩
  | unary op operand => exact ⟨_, _, render_unary op operand, rfl⟩
  | binary op left right => exact ⟨_, _, render_binary op left right, rfl⟩

/-- No sign of assignment starts an expression, so none is made of the sign in front of it. -/
theorem WellFormed.leaves_assign {e : Expr} (he : e.WellFormed) (rest : List Char) :
    Leaves (· == '=') (e.render.toList ++ rest) := by
  obtain ⟨c, cs, h, hc⟩ := he.exists_first
  rw [h, List.cons_append, leaves_cons, beq_eq_false_iff_ne]
  rintro rfl
  have closed : e.opensWith '=' = false := by
    cases e <;> rfl
  rw [closed] at hc
  cases hc

/-- The spelling of a binary operator runs on with no expression. -/
theorem leaves_spelling (e : Expr) (op : Operator) (rest : List Char) :
    Leaves e.runsOn (op.spelling.toList ++ rest) := by
  cases op <;> exact e.leaves_runsOn (by decide) (by decide) _

/-! ### Written expressions are atoms -/

/-- Written at an offset in front of `rest`, an expression is read as an atom that stands for it
and costs what it needs, and what is left to read is `rest`. -/
def PhraseAt (e : Expr) (here : Nat) (rest : List Char) : Prop :=
  ∃ (p : Phrase) (there : Nat), Nonterminal.atom.Derives p ∧ p.tree = e ∧ p.cost = e.need ∧
    (⟨here, e.render.toList ++ rest⟩ : Cursor).pending =
      p.tokens ++ (⟨there, rest⟩ : Cursor).pending

variable {here : Nat} {rest : List Char}

theorem phraseAt_identifier {name : String} (h : IsName name) (hr : Leaves isLetter rest) :
    (identifier name).PhraseAt here rest :=
  ⟨.identifier (.spelled .identifier here name.toList), _, .identifier rfl,
    congrArg identifier String.ofList_toList, rfl, h.pending here hr⟩

theorem phraseAt_integer {value : Int} {literal : String} (h : IsNumeral value literal)
    (hr : Leaves Char.isDigit rest) : (integer value literal).PhraseAt here rest := by
  obtain ⟨hn, hd, rfl, hm⟩ := h
  have number :=
    Cursor.pending_number here (String.toList_eq_nil_iff.not.2 hn) (List.all_eq_true.1 hd) hr
  refine ⟨.integer (.spelled .integer here literal.toList), _, .integer rfl ?_, ?_, rfl, number⟩
  · rw [Token.spelled, String.toList_ofList]
    omega
  · simp [Phrase.tree, Token.spelled]

theorem phraseAt_boolean (value : Bool) (hr : Leaves isLetter rest) :
    (boolean value (if value then "true" else "false")).PhraseAt here rest := by
  cases value with
  | false => exact ⟨_, _, .falseWord rfl, rfl, rfl, Cursor.pending_keyword here .falseWord hr⟩
  | true => exact ⟨_, _, .trueWord rfl, rfl, rfl, Cursor.pending_keyword here .trueWord hr⟩

theorem phraseAt_unary {op : Operator} {operand : Expr} (hop : op.isUnary = true)
    (hx : Leaves (· == '=') (operand.render.toList ++ (Punctuation.rparen.spelling.toList ++ rest)))
    (h : ∀ here, operand.PhraseAt here (Punctuation.rparen.spelling.toList ++ rest)) :
    (unary op operand).PhraseAt here rest := by
  let inner := here + byteLength Punctuation.lparen.spelling.toList
  have sign := Cursor.pending_operator inner op fun _ ↦ hx
  obtain ⟨p, there, hp, rfl, hcost, ht⟩ := h (inner + byteLength op.spelling.toList)
  let q : Phrase := .unary op (.spelled (.operator op) inner op.spelling.toList) p
  have hq : Nonterminal.expression.Derives q :=
    Nonterminal.expression_derives_iff.2 ⟨rfl, hop, hp.tighterThan⟩
  have body : (⟨inner, (op.spelling.toList ++ p.tree.render.toList) ++
        (Punctuation.rparen.spelling.toList ++ rest)⟩ : Cursor).pending =
      q.tokens ++ (⟨there, Punctuation.rparen.spelling.toList ++ rest⟩ : Cursor).pending := by
    simp only [List.append_assoc, sign, ht, q, Phrase.tokens, List.cons_append]
  obtain ⟨opening, closing, beyond, hall, whole⟩ := Phrase.exists_parens hq body
  refine ⟨.parens opening q closing, beyond, hall, rfl, congrArg (· + 2) hcost, ?_⟩
  rw [render_unary, ← whole]
  simp only [List.append_assoc]

theorem phraseAt_binary {op : Operator} {left right : Expr} (hop : op.isBinary = true)
    (hy : Leaves (· == '=') (right.render.toList ++ (Punctuation.rparen.spelling.toList ++ rest)))
    (hl : ∀ here, left.PhraseAt here (op.spelling.toList ++
      (right.render.toList ++ (Punctuation.rparen.spelling.toList ++ rest))))
    (hr : ∀ here, right.PhraseAt here (Punctuation.rparen.spelling.toList ++ rest)) :
    (binary op left right).PhraseAt here rest := by
  let inner := here + byteLength Punctuation.lparen.spelling.toList
  obtain ⟨p, signAt, hp, rfl, hcost, ht⟩ := hl inner
  have sign := Cursor.pending_operator signAt op fun _ ↦ hy
  obtain ⟨q, there, hq, rfl, hcost', ht'⟩ := hr (signAt + byteLength op.spelling.toList)
  let r : Phrase := .binary op p (.spelled (.operator op) signAt op.spelling.toList) q
  have hpq : Nonterminal.expression.Derives r :=
    Nonterminal.expression_derives_iff.2 ⟨⟨rfl, hop⟩,
      Operator.lowest_lt_precedence_of_isBinary hop, hp.tighterThan.of_unary,
      hq.tighterThan.of_unary⟩
  have body : (⟨inner, (p.tree.render.toList ++ (op.spelling.toList ++ q.tree.render.toList)) ++
        (Punctuation.rparen.spelling.toList ++ rest)⟩ : Cursor).pending =
      r.tokens ++ (⟨there, Punctuation.rparen.spelling.toList ++ rest⟩ : Cursor).pending := by
    simp only [List.append_assoc, ht, sign, ht', r, Phrase.tokens, List.cons_append]
  obtain ⟨opening, closing, beyond, hall, whole⟩ := Phrase.exists_parens hpq body
  refine ⟨.parens opening r closing, beyond, hall, rfl, ?_, ?_⟩
  -- The left operand is enclosed or a leaf, so one operator stands on the spine.
  · rw [need, ← hcost, ← hcost']
    simp only [Phrase.cost, r, hp.tighterThan.spine_eq]
    omega
  · rw [render_binary, ← whole]
    simp only [List.append_assoc]

/-- **The written form of an expression is an atom** that stands for it and costs what it needs,
wherever it is written and whatever follows without running on. -/
theorem WellFormed.phraseAt {e : Expr} (he : e.WellFormed) (here : Nat)
    (hr : Leaves e.runsOn rest) : e.PhraseAt here rest := by
  induction e generalizing here rest with
  | identifier name => exact phraseAt_identifier he hr
  | integer value literal => exact phraseAt_integer he hr
  | boolean value literal =>
    obtain rfl : literal = if value then "true" else "false" := he
    exact phraseAt_boolean value hr
  | unary op operand ih =>
    obtain ⟨hop, hx⟩ := he
    have stop : Leaves operand.runsOn (Punctuation.rparen.spelling.toList ++ rest) :=
      operand.leaves_runsOn rfl rfl rest
    exact phraseAt_unary (Operator.isUnary_iff.2 hop) (hx.leaves_assign _) fun here ↦
      ih hx here stop
  | binary op left right ihl ihr =>
    obtain ⟨hop, hx, hy⟩ := he
    have stop : Leaves right.runsOn (Punctuation.rparen.spelling.toList ++ rest) :=
      right.leaves_runsOn rfl rfl rest
    exact phraseAt_binary (Operator.isBinary_iff.2 hop) (hy.leaves_assign _)
      (fun here ↦ ihl hx here (left.leaves_spelling op _)) fun here ↦ ihr hy here stop

end Expr

/-- **Written expressions are parsed to themselves** exactly with the limits that allow what they
need; with a lower one nothing is read, and the one error is that limit. -/
theorem parse_render_expr {e : Expr} (he : e.WellFormed) (config : Config) :
    (e.need ≤ config.maxDepth →
        parse config e.render = ⟨⟨[.expressionStatement e]⟩, []⟩) ∧
      (config.maxDepth < e.need →
        (parse config e.render).program = ⟨[]⟩ ∧
          ∃ span, (parse config e.render).errors =
            [⟨.nestingTooDeep config.maxDepth, span⟩]) := by
  obtain ⟨p, there, hp, rfl, hcost, ht⟩ := he.phraseAt 0 (leaves_nil _)
  rw [List.append_nil, Cursor.pending_nil, List.append_nil] at ht
  have alone := hp.tighterThan.lowest
  exact ⟨fun hl ↦ parse_of_phrase ht alone (hcost ▸ hl),
    fun hl ↦ parse_of_tooDeep ht alone (hcost ▸ hl)⟩

/-- A sum that needs four levels: it is parsed with four, and refused with three. -/
theorem parse_render_expr_sum :
    (Expr.binary .plus (.unary .minus (.identifier "a")) (.integer 5 "5")).WellFormed ∧
      parse ⟨4⟩ "((-a)+5)" =
        ⟨⟨[.expressionStatement
          (.binary .plus (.unary .minus (.identifier "a")) (.integer 5 "5"))]⟩, []⟩ ∧
      (parse ⟨3⟩ "((-a)+5)").program = ⟨[]⟩ := by
  have he : (Expr.binary .plus (.unary .minus (.identifier "a")) (.integer 5 "5")).WellFormed := by
    decide +kernel
  exact ⟨he, (parse_render_expr he ⟨4⟩).1 (by decide),
    ((parse_render_expr he ⟨3⟩).2 (by decide)).1⟩

end MonkeyLang
