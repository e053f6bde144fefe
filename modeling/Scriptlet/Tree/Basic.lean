/-
Program trees: operators, expressions and statements.
-/

namespace Scriptlet

/-- Operators written in front of their operand. -/
inductive UnaryOp where
  | not
  | negate
deriving DecidableEq, Repr

namespace UnaryOp

def symbol : UnaryOp → String
  | not => "!"
  | negate => "-"

def all : List UnaryOp := [not, negate]

/-- The operator with a given symbol. -/
def ofSymbol? (symbol : String) : Option UnaryOp :=
  all.find? fun op => op.symbol == symbol

end UnaryOp

/-- Operators written between their operands. -/
inductive BinaryOp where
  | add
  | sub
  | mul
  | div
  | mod
  | less
  | greater
  | equal
  | notEqual
deriving DecidableEq, Repr

namespace BinaryOp

def symbol : BinaryOp → String
  | add => "+"
  | sub => "-"
  | mul => "*"
  | div => "/"
  | mod => "%"
  | less => "<"
  | greater => ">"
  | equal => "=="
  | notEqual => "!="

def all : List BinaryOp :=
  [add, sub, mul, div, mod, less, greater, equal, notEqual]

/-- The operator with a given symbol. -/
def ofSymbol? (symbol : String) : Option BinaryOp :=
  all.find? fun op => op.symbol == symbol

end BinaryOp

mutual

/-- Expressions. -/
inductive Expr where
  | identifier (name : String)
  | integer (value : Int64)
  | boolean (value : Bool)
  | string (value : String)
  | array (elements : List Expr)
  | hash (pairs : List (Expr × Expr))
  | unary (op : UnaryOp) (operand : Expr)
  | binary (op : BinaryOp) (left right : Expr)
  | conditional (condition : Expr) (consequence : List Statement)
      (alternative : Option (List Statement))
  | function (parameters : List String) (body : List Statement)
  | call (callee : Expr) (arguments : List Expr)
  | index (collection position : Expr)

/-- Statements.  A nested block shares the scope of the statements around it. -/
inductive Statement where
  | binding (name : String) (value : Expr)
  | returning (value : Expr)
  | expression (value : Expr)
  | block (body : List Statement)

end

/-- The statements of a branch or of a function body. -/
abbrev Block := List Statement

/-- A whole program, statement by statement. -/
abbrev Program := List Statement

end Scriptlet
