/-!
# Expressions

Node bodies are made of operations, whose operands are expressions: variables, arithmetic and
assignments used for their value.

* `Operator` — the four arithmetic operators, with their symbols and precedences.
* `Expr`, `Operation` — expressions, and those of them that do something.
* `Expr.render` — the text of an expression where an expression of a given precedence is
  expected, with parentheses if it binds less tightly.
* `Expr.text`, `Operation.text`, `Operation.statement` — an expression by itself, an operation
  by itself (an assignment ends in a semicolon) and an operation as a statement.
-/

namespace ShaderGraph

/-! ### Operators -/

/-- An arithmetic operator of the shading language. -/
inductive Operator where
  | add
  | subtract
  | multiply
  | divide
deriving DecidableEq, Repr

namespace Operator

/-- The operator as it is written. -/
def symbol : Operator → String
  | add => "+"
  | subtract => "-"
  | multiply => "*"
  | divide => "/"

/-- How tightly the operator binds. Assignments have precedence 0, variables need none. -/
def precedence : Operator → Nat
  | add | subtract => 1
  | multiply | divide => 2

end Operator

/-! ### Expressions and operations -/

/-- An expression. -/
inductive Expr where
  | var (name : String)
  | assign (target : String) (value : Expr)
  | binary (op : Operator) (lhs rhs : Expr)
deriving DecidableEq, Repr

/-- An expression that does something: one statement of a function body. -/
inductive Operation where
  | assign (target : String) (value : Expr)
  | binary (op : Operator) (lhs rhs : Expr)
deriving DecidableEq, Repr

namespace Operation

/-- An operation as an operand. -/
def toExpr : Operation → Expr
  | assign target value => .assign target value
  | binary op lhs rhs => .binary op lhs rhs

/-- Operator and operands of an arithmetic operation. -/
def binary? : Operation → Option (Operator × Expr × Expr)
  | assign _ _ => none
  | binary op lhs rhs => some (op, lhs, rhs)

end Operation

/-! ### Text -/

/-- The text in parentheses if `loose` holds. -/
def enclose (loose : Bool) (text : String) : String :=
  if loose then "(" ++ text ++ ")" else text

/-- The text of an expression where one of precedence `level` or more is expected. Operators
    associate to the left, so a right operand has to bind more tightly than its operator. -/
def Expr.render (level : Nat) : Expr → String
  | var name => name
  | assign target value => enclose (0 < level) (target ++ " = " ++ value.render 1)
  | binary op lhs rhs =>
    enclose (op.precedence < level)
      (lhs.render op.precedence ++ (" " ++ op.symbol ++ " ") ++ rhs.render (op.precedence + 1))

/-- The text of an expression that stands by itself. An assignment is enclosed even then. -/
def Expr.text (e : Expr) : String := e.render 1

namespace Operation

/-- The text of an operation; an assignment ends in a semicolon. -/
def text (o : Operation) : String :=
  match o with
  | assign _ _ => o.toExpr.render 0 ++ ";"
  | binary _ _ _ => o.toExpr.render 0

/-- The text of an operation as a statement. -/
def statement (o : Operation) : String := o.toExpr.render 0 ++ ";"

end Operation

end ShaderGraph
