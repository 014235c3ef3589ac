import TextTemplate.Value.Operation

/-!
# Expressions

The syntax trees of the expression language. A tree holds literals rather than values, so that it
does not depend on anything that a render makes.
-/

namespace TextTemplate

/-- A literal of the expression language. -/
inductive Literal where
  | null
  | bool (b : Bool)
  | int (n : Int64)
  | float (x : Float)
  | string (s : String)

/-- The value that a literal stands for. -/
def Literal.value : Literal → Value
  | null => .null
  | bool b => .bool b
  | int n => .int n
  | float x => .float x
  | string s => .string s

/-- An expression. An assignment with an operator first combines the old value of its name with the
new one; a sequence has the value of its last statement. -/
inductive Expr where
  | literal (value : Literal)
  | list (items : List Expr)
  | ident (name : String)
  | field (target : Expr) (name : String)
  | index (target place : Expr)
  | call (callee : Expr) (args : List Expr)
  | unary (op : UnaryOp) (operand : Expr)
  | binary (op : BinaryOp) (left right : Expr)
  | assign (name : String) (op : Option BinaryOp) (value : Expr)
  | sequence (statements : List Expr)
deriving Inhabited

end TextTemplate
