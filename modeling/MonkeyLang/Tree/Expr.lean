import MonkeyLang.Text.Dump
import MonkeyLang.Vocabulary.Operator

/-!
# Expressions

An expression is a leaf, an operator before one operand, or an operator between two. Leaves keep
the text that they were written with, next to the value that the text denotes, and two leaves
are equal only if both agree. Parentheses leave no trace in the tree: the written form puts a
pair around every operator application and nowhere else, and it has no blanks.
-/

namespace MonkeyLang

/-- An expression tree. -/
inductive Expr
  | identifier (name : String)
  | integer (value : Int) (literal : String)
  | boolean (value : Bool) (literal : String)
  | unary (op : Operator) (operand : Expr)
  | binary (op : Operator) (left right : Expr)
  deriving DecidableEq

namespace Expr

/-- The written form of an expression. -/
def render : Expr → String
  | identifier name => name
  | integer _ literal => literal
  | boolean _ literal => literal
  | unary op operand => "(" ++ op.spelling ++ operand.render ++ ")"
  | binary op left right => "(" ++ left.render ++ op.spelling ++ right.render ++ ")"

/-- The word or sign that names an expression: the text of a leaf, or the operator's sign. -/
def literal : Expr → String
  | identifier name => name
  | integer _ literal => literal
  | boolean _ literal => literal
  | unary op _ => op.spelling
  | binary op _ _ => op.spelling

/-- The structure of an expression. -/
def dump : Expr → Dump
  | identifier name => .wrapped "Identifier" [.record "Identifier" [("name", .text name)]]
  | integer value literal =>
    .wrapped "Integer"
      [.record "IntegerLiteral" [("value", .int value), ("literal", .text literal)]]
  | boolean value literal =>
    .wrapped "Boolean"
      [.record "BooleanLiteral" [("value", .bool value), ("literal", .text literal)]]
  | unary op operand =>
    .wrapped "Prefix"
      [.record "PrefixExpression" [("operator", .atom op.name), ("operand", operand.dump)]]
  | binary op left right =>
    .wrapped "Infix"
      [.record "InfixExpression"
        [("operator", .atom op.name), ("left", left.dump), ("right", right.dump)]]

/-- The subexpressions of an expression that stands `depth` levels down, each with its own
depth: an expression before its operands, the left operand before the right one. -/
def outline (depth : Nat) : Expr → List (Nat × Expr)
  | unary op operand => (depth, unary op operand) :: operand.outline (depth + 1)
  | binary op left right =>
    (depth, binary op left right) :: (left.outline (depth + 1) ++ right.outline (depth + 1))
  | leaf => [(depth, leaf)]

end Expr

end MonkeyLang
