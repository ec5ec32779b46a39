import Mathlib.Algebra.Group.Nat.Defs
import Mathlib.Data.List.Chain
import MonkeyLang.Text.Decimal
import MonkeyLang.Token.Basic
import MonkeyLang.Tree.Program

/-!
# The grammar of programs

The language as a grammar, said without the reader. Four levels of binary operators, each of
them left-recursive over the next, stand above unary operators, and these above leaves and
parentheses. A statement is an opening, an expression and perhaps a semicolon, and a program is
any number of statements.

A derivation is kept as data. `Phrase` is the derivation of an expression with its chain steps
left out, which the level at each node determines; `Clause` is that of a statement; and the
derivation of a program is a list of clauses. Each has the `tokens` that it spans and the `tree`
that it stands for, in which parentheses leave no trace. `Nonterminal.Derives` and
`Clause.IsDerived` say which of them obey the productions.

The grammar is ambiguous between statements, and there alone: without a semicolon in between, a
minus may open the next statement or join two operands. `MinusJoins` singles out the derivations
of programs in which it always joins.
-/

namespace MonkeyLang

/-! ### Expressions -/

/-- The derivation of an expression, up to its chain steps. -/
inductive Phrase
  | identifier (t : Token)
  | integer (t : Token)
  | boolean (value : Bool) (t : Token)
  | unary (op : Operator) (sign : Token) (operand : Phrase)
  | binary (op : Operator) (left : Phrase) (sign : Token) (right : Phrase)
  | parens (opening : Token) (inner : Phrase) (closing : Token)

namespace Phrase

/-- The tokens that a phrase spans. -/
def tokens : Phrase → List Token
  | identifier t => [t]
  | integer t => [t]
  | boolean _ t => [t]
  | unary _ sign operand => sign :: operand.tokens
  | binary _ left sign right => left.tokens ++ sign :: right.tokens
  | parens opening inner closing => opening :: (inner.tokens ++ [closing])

/-- The tree that a phrase stands for. -/
def tree : Phrase → Expr
  | identifier t => .identifier t.text
  | integer t => .integer (decimalValue t.text.toList) t.text
  | boolean value t => .boolean value t.text
  | unary op _ operand => .unary op operand.tree
  | binary op left _ right => .binary op left.tree right.tree
  | parens _ inner _ => inner.tree

/-- The last token of a phrase. -/
def last : Phrase → Token
  | identifier t => t
  | integer t => t
  | boolean _ t => t
  | unary _ _ operand => operand.last
  | binary _ _ _ right => right.last
  | parens _ _ closing => closing

/-- A phrase spans at least one token. -/
theorem tokens_ne_nil (p : Phrase) : p.tokens ≠ [] := by
  cases p <;> simp [tokens]

end Phrase

/-- A level of binary operators, from the loosest to the tightest. -/
inductive Level
  | equality
  | comparison
  | sum
  | product
  deriving DecidableEq

/-- What an expression may be derived from: a level of binary operators, an operand that may
start with unary operators, or a leaf or a pair of parentheses. -/
inductive Nonterminal
  | level (l : Level)
  | unary
  | atom
  deriving DecidableEq

namespace Level

/-- The operators of a level. -/
def signs : Level → List Operator
  | equality => [.eqEq, .notEq]
  | comparison => [.lt, .gt]
  | sum => [.plus, .minus]
  | product => [.asterisk, .slash]

/-- What the operators of a level take as their right operands. -/
def next : Level → Nonterminal
  | equality => .level .comparison
  | comparison => .level .sum
  | sum => .level .product
  | product => .unary

end Level

namespace Nonterminal

/-- Where every expression starts: at the loosest level. -/
abbrev expression : Nonterminal := .level .equality

/-- The productions of expressions. A level is the next one, or itself with one of its operators
and the next one behind; an operand is an atom, or a unary operator with an operand; an atom is
a leaf, or an expression in parentheses. -/
inductive Derives : Nonterminal → Phrase → Prop
  | chain {l : Level} {p : Phrase} (h : Derives l.next p) : Derives (.level l) p
  | binary {l : Level} {op : Operator} {left right : Phrase} {sign : Token} (hop : op ∈ l.signs)
    (hs : sign.kind = .operator op) (hl : Derives (.level l) left) (hr : Derives l.next right) :
    Derives (.level l) (.binary op left sign right)
  | atom {p : Phrase} (h : Derives .atom p) : Derives .unary p
  | unary {op : Operator} {operand : Phrase} {sign : Token} (hop : op = .minus ∨ op = .bang)
    (hs : sign.kind = .operator op) (h : Derives .unary operand) :
    Derives .unary (.unary op sign operand)
  | identifier {t : Token} (h : t.kind = .identifier) : Derives .atom (.identifier t)
  | integer {t : Token} (h : t.kind = .integer) (hv : decimalValue t.text.toList ≤ 2 ^ 63 - 1) :
    Derives .atom (.integer t)
  | trueWord {t : Token} (h : t.kind = .keyword .trueWord) : Derives .atom (.boolean true t)
  | falseWord {t : Token} (h : t.kind = .keyword .falseWord) : Derives .atom (.boolean false t)
  | parens {inner : Phrase} {opening closing : Token}
    (ho : opening.kind = .punctuation .lparen) (h : Derives (.level .equality) inner)
    (hc : closing.kind = .punctuation .rparen) : Derives .atom (.parens opening inner closing)

end Nonterminal

/-! ### Statements and programs -/

/-- What a statement starts with: a binding, a return, or nothing but its expression. -/
inductive Opening
  | binding (word name sign : Token)
  | result (word : Token)
  | bare

namespace Opening

/-- The tokens in front of a statement's expression. -/
def tokens : Opening → List Token
  | binding word name sign => [word, name, sign]
  | result word => [word]
  | bare => []

/-- The statement with a given expression. -/
def statement : Opening → Expr → Statement
  | binding _ name _ => .letStatement name.text
  | result _ => .returnStatement
  | bare => .expressionStatement

/-- The productions of openings. -/
def IsDerived : Opening → Prop
  | binding word name sign => word.kind = .keyword .letWord ∧ name.kind = .identifier ∧
      sign.kind = .operator .assign
  | result word => word.kind = .keyword .returnWord
  | bare => True

end Opening

/-- The derivation of a statement. -/
structure Clause where
  opening : Opening
  value : Phrase
  semicolon? : Option Token

namespace Clause

/-- The tokens that a statement spans. -/
def tokens (c : Clause) : List Token :=
  c.opening.tokens ++ (c.value.tokens ++ c.semicolon?.toList)

/-- The statement that a clause stands for. -/
def tree (c : Clause) : Statement := c.opening.statement c.value.tree

/-- The expression of a statement is the tree of its phrase, whatever the opening. -/
theorem expr_tree (c : Clause) : c.tree.expr = c.value.tree := by
  obtain ⟨o, p, semicolon⟩ := c
  rcases o with ⟨word, name, sign⟩ | word | - <;> rfl

/-- The production of statements. -/
structure IsDerived (c : Clause) : Prop where
  opening : c.opening.IsDerived
  value : Nonterminal.expression.Derives c.value
  semicolon : ∀ t ∈ c.semicolon?, t.kind = .punctuation .semicolon

/-- A statement starts with a minus when its first token is that sign. -/
def StartsWithMinus (c : Clause) : Prop :=
  ∃ t ∈ c.tokens.head?, t.kind = .operator .minus

end Clause

/-- No statement that starts with a minus directly follows one without a semicolon. -/
def MinusJoins (cs : List Clause) : Prop :=
  cs.IsChain fun c d ↦ c.semicolon? = none → ¬ d.StartsWithMinus

/-- A derivation of a program that spans the given tokens. -/
structure DerivesProgram (tokens : List Token) (cs : List Clause) : Prop where
  derived : ∀ c ∈ cs, c.IsDerived
  tokens_eq : cs.flatMap Clause.tokens = tokens

end MonkeyLang
