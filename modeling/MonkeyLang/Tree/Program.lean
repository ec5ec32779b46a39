import MonkeyLang.Tree.Expr

/-!
# Statements and programs

A program is a list of statements. A statement binds a name, returns a value, or is a bare
expression. The written form of a binding or a return ends with a semicolon and that of a bare
expression does not, and the written form of a program puts nothing between its statements.
-/

namespace MonkeyLang

/-- A statement of a program. -/
inductive Statement
  | letStatement (name : String) (value : Expr)
  | returnStatement (value : Expr)
  | expressionStatement (expression : Expr)
  deriving DecidableEq

namespace Statement

/-- The expression of a statement. -/
def expr : Statement → Expr
  | letStatement _ value => value
  | returnStatement value => value
  | expressionStatement expression => expression

/-- The written form of a statement. -/
def render : Statement → String
  | letStatement name value => "let " ++ name ++ " = " ++ value.render ++ ";"
  | returnStatement value => "return " ++ value.render ++ ";"
  | expressionStatement expression => expression.render

/-- The word or sign that names a statement: its keyword, or what names the expression. -/
def literal : Statement → String
  | letStatement _ _ => "let"
  | returnStatement _ => "return"
  | expressionStatement expression => expression.literal

/-- The structure of a statement. -/
def dump : Statement → Dump
  | letStatement name value =>
    .wrapped "Let"
      [.record "LetStatement"
        [("name", .record "Identifier" [("name", .text name)]), ("value", value.dump)]]
  | returnStatement value =>
    .wrapped "Return" [.record "ReturnStatement" [("value", value.dump)]]
  | expressionStatement expression =>
    .wrapped "Expression" [.record "ExpressionStatement" [("expression", expression.dump)]]

end Statement

/-- A program is its statements in order. -/
structure Program where
  statements : List Statement
  deriving DecidableEq

namespace Program

/-- The written form of a program. -/
def render (p : Program) : String := String.join (p.statements.map Statement.render)

/-- What names a program is what names its first statement. -/
def literal (p : Program) : String := (p.statements.head?.map Statement.literal).getD ""

/-- The structure of a program. -/
def dump (p : Program) : Dump :=
  .record "Program" [("statements", .list (p.statements.map Statement.dump))]

end Program

end MonkeyLang
