/-
The roles of tokens in expressions: which tokens open an expression, which
extend the expression in front of them, and how tightly those bind.
-/
import Scriptlet.Token.Basic
import Scriptlet.Tree.Basic

namespace Scriptlet

/-- Binding strength, weakest first. -/
inductive Precedence where
  | lowest
  | equals
  | lessGreater
  | sum
  | product
  | unary
  | call
  | index
deriving DecidableEq, Repr

namespace Precedence

def rank : Precedence → Nat
  | lowest => 0
  | equals => 1
  | lessGreater => 2
  | sum => 3
  | product => 4
  | unary => 5
  | call => 6
  | index => 7

instance : LT Precedence := ⟨fun a b => a.rank < b.rank⟩

instance (a b : Precedence) : Decidable (a < b) :=
  inferInstanceAs (Decidable (a.rank < b.rank))

instance : Ord Precedence := ⟨fun a b => compare a.rank b.rank⟩

end Precedence

/-- How strongly a binary operator binds its operands. -/
def BinaryOp.precedence : BinaryOp → Precedence
  | .equal | .notEqual => .equals
  | .less | .greater => .lessGreater
  | .add | .sub => .sum
  | .mul | .div | .mod => .product

/-- How reading goes on at a token behind an expression. -/
inductive Continuation where
  | operation
  | arguments
  | position
deriving DecidableEq, Repr

/-- What can follow an expression and make a larger one of it. -/
inductive Extension where
  | operator (op : BinaryOp)
  | arguments
  | position
deriving DecidableEq, Repr

/-- What an expression can start with. -/
inductive Opening where
  | identifier
  | integer
  | string
  | boolean (value : Bool)
  | operator (op : UnaryOp)
  | group
  | array
  | hash
  | conditional
  | function
  | illegal
deriving DecidableEq, Repr

namespace TokenKind

/-- How reading goes on at a token behind an expression, if it does. -/
def continuation? : TokenKind → Option Continuation
  | plus | minus | asterisk | slash | percent => some .operation
  | lt | gt | eq | notEq => some .operation
  | lparen => some .arguments
  | lbracket => some .position
  | _ => none

/-- The binary operator that a token stands for, if it does. -/
def operator? : TokenKind → Option BinaryOp
  | plus => some .add
  | minus => some .sub
  | asterisk => some .mul
  | slash => some .div
  | percent => some .mod
  | lt => some .less
  | gt => some .greater
  | eq => some .equal
  | notEq => some .notEqual
  | _ => none

/-- How strongly a token binds the expression in front of it. -/
def precedence : TokenKind → Precedence
  | eq | notEq => .equals
  | lt | gt => .lessGreater
  | plus | minus => .sum
  | asterisk | slash | percent => .product
  | lparen => .call
  | lbracket => .index
  | _ => .lowest

/-- How a token extends the expression in front of it, if it does. -/
def extension? (kind : TokenKind) : Option Extension :=
  match kind.continuation? with
  | some .operation => kind.operator?.map .operator
  | some .arguments => some .arguments
  | some .position => some .position
  | none => none

/-- How a token opens an expression, if it does. -/
def opening? : TokenKind → Option Opening
  | ident => some .identifier
  | int => some .integer
  | string => some .string
  | trueWord => some (.boolean true)
  | falseWord => some (.boolean false)
  | bang => some (.operator .not)
  | minus => some (.operator .negate)
  | lparen => some .group
  | lbracket => some .array
  | lbrace => some .hash
  | ifWord => some .conditional
  | functionWord => some .function
  | illegal => some .illegal
  | _ => none

variable {kind : TokenKind}

/-- Where reading goes on with an operation, there is an operator to be found,
and it binds as its token does. -/
theorem exists_operator_of_continuation?
    (h : kind.continuation? = some .operation) :
    ∃ op, kind.operator? = some op ∧ op.precedence = kind.precedence := by
  cases kind <;> first | exact ⟨_, rfl, rfl⟩ | cases h

/-- Where reading goes on behind an expression, the expression is extended. -/
theorem extension?_eq_none_iff :
    kind.extension? = none ↔ kind.continuation? = none := by
  cases kind <;> decide

theorem precedence_of_operator {op : BinaryOp}
    (h : kind.extension? = some (.operator op)) :
    kind.precedence = op.precedence := by
  cases kind <;> cases h <;> rfl

theorem precedence_of_extension?_eq_none (h : kind.extension? = none) :
    kind.precedence = .lowest := by
  cases kind <;> first | rfl | cases h

end TokenKind

end Scriptlet
