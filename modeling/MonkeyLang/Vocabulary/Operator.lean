import MonkeyLang.Vocabulary.Precedence
import MonkeyLang.Vocabulary.Since

/-!
# Operators

The ten operator signs with the facts about them that reading an expression needs: where a sign
may stand relative to its operands, how tightly it binds, and which way equal signs group.
Assignment is a sign without a place in expressions, so it has no fixity at all.
-/

namespace MonkeyLang

/-- An operator sign. -/
inductive Operator
  | assign
  | plus
  | minus
  | asterisk
  | slash
  | bang
  | lt
  | gt
  | eqEq
  | notEq
  deriving DecidableEq

/-- Which way operators of one strength group. -/
inductive Associativity
  | left
  | right
  | neither
  deriving DecidableEq

/-- Where an operator stands: between two operands, or before one. -/
inductive Fixity
  | binary
  | unary
  deriving DecidableEq

namespace Operator

/-- Every operator, in table order. -/
def all : List Operator :=
  [assign, plus, minus, asterisk, slash, bang, lt, gt, eqEq, notEq]

theorem mem_all (op : Operator) : op ∈ all := by
  cases op <;> decide

/-- The one spelling of an operator. -/
def spelling : Operator → String
  | assign => "="
  | plus => "+"
  | minus => "-"
  | asterisk => "*"
  | slash => "/"
  | bang => "!"
  | lt => "<"
  | gt => ">"
  | eqEq => "=="
  | notEq => "!="

/-- The name of an operator in dumps. -/
def name : Operator → String
  | assign => "Assign"
  | plus => "Plus"
  | minus => "Minus"
  | asterisk => "Asterisk"
  | slash => "Slash"
  | bang => "Bang"
  | lt => "Lt"
  | gt => "Gt"
  | eqEq => "EqEq"
  | notEq => "NotEq"

/-- The name of an operator in messages. -/
def tag : Operator → String
  | assign => "ASSIGN"
  | plus => "PLUS"
  | minus => "MINUS"
  | asterisk => "ASTERISK"
  | slash => "SLASH"
  | bang => "BANG"
  | lt => "LT"
  | gt => "GT"
  | eqEq => "EQ"
  | notEq => "NOT_EQ"

/-- How tightly an operator binds. -/
def precedence : Operator → Precedence
  | assign => .lowest
  | plus => .sum
  | minus => .sum
  | asterisk => .product
  | slash => .product
  | bang => .unary
  | lt => .lessGreater
  | gt => .lessGreater
  | eqEq => .equals
  | notEq => .equals

/-- Which way an operator groups with others of its strength. -/
def associativity : Operator → Associativity
  | assign => .neither
  | bang => .right
  | _ => .left

/-- The places where an operator may stand. -/
def fixity : Operator → List Fixity
  | assign => []
  | minus => [.unary, .binary]
  | bang => [.unary]
  | _ => [.binary]

/-- Every operator has been there from the first version on. -/
def since (_ : Operator) : Since := ⟨0, 1⟩

/-- Every operator is settled. -/
def stability (_ : Operator) : Stability := .stable

/-- An operator is unary when it may stand before its operand. -/
def isUnary (op : Operator) : Bool :=
  op.fixity.contains .unary

/-- An operator is binary when it may stand between two operands. -/
def isBinary (op : Operator) : Bool :=
  op.fixity.contains .binary

/-- The strength with which an operator joins two operands, if it can. -/
def binaryPrecedence? (op : Operator) : Option Precedence :=
  if op.isBinary then some op.precedence else none

/-- The step that an operator's right operand has to exceed: its own for an operator that
groups to the left, the one below for an operator that groups to the right. -/
def rightFloor (op : Operator) : Precedence :=
  match op.associativity with
  | .right => op.precedence.lower
  | .left | .neither => op.precedence

/-- The operator with a given spelling, if there is one. -/
def ofSpelling? (text : String) : Option Operator :=
  all.find? fun op ↦ op.spelling == text

/-- The lookup finds exactly the operator with the spelling asked for. -/
theorem ofSpelling?_eq_some_iff {text : String} {op : Operator} :
    ofSpelling? text = some op ↔ op.spelling = text := by
  constructor
  · intro h
    simpa using List.find?_some h
  · rintro rfl
    cases op <;> decide

/-- Every binary operator groups to the left, so its right operand must bind tighter. -/
theorem rightFloor_of_isBinary {op : Operator} (h : op.isBinary = true) :
    op.rightFloor = op.precedence := by
  revert h
  cases op <;> decide

/-- Every binary operator stands above the lowest step. -/
theorem lowest_lt_precedence_of_isBinary {op : Operator} (h : op.isBinary = true) :
    Precedence.lowest < op.precedence := by
  revert h
  cases op <;> decide

end Operator

end MonkeyLang
