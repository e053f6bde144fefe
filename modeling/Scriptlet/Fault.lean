/-
Faults: what can go wrong while a program runs.
-/
import Scriptlet.Builtin
import Scriptlet.Integer
import Scriptlet.Tree.Basic

namespace Scriptlet

/-- The types of values. -/
inductive TypeName where
  | null
  | integer
  | boolean
  | string
  | array
  | hash
  | function
  | builtin
  | returning
  | fault
deriving DecidableEq, Repr

/-- The name of a type in messages. -/
def TypeName.text : TypeName → String
  | null => "NULL"
  | integer => "INTEGER"
  | boolean => "BOOLEAN"
  | string => "STRING"
  | array => "ARRAY"
  | hash => "HASH"
  | function => "FUNCTION"
  | builtin => "BUILTIN"
  | returning => "RETURN_VALUE"
  | fault => "ERROR"

/-- The operations whose result can leave the range of integers. -/
inductive Overflow where
  | operation (left : Int64) (op : BinaryOp) (right : Int64)
  | negation (operand : Int64)
  | length (count : Nat)
deriving DecidableEq, Repr

def Overflow.text : Overflow → String
  | operation left op right =>
      Integer.toText left ++ " " ++ op.symbol ++ " " ++ Integer.toText right
  | negation operand => "-(" ++ Integer.toText operand ++ ")"
  | length count => "len " ++ toString count

/-- What can go wrong while a program runs. -/
inductive Fault where
  /-- A name bound neither in a scope nor to a built-in function. -/
  | unbound (name : String)
  /-- An operator that has no meaning for its operand. -/
  | unknownUnary (op : UnaryOp) (operand : TypeName)
  /-- An operator that has no meaning for two operands of this type. -/
  | unknownBinary (left : TypeName) (op : BinaryOp) (right : TypeName)
  /-- Operands of different types. -/
  | typeMismatch (left : TypeName) (op : BinaryOp) (right : TypeName)
  | divisionByZero
  | integerOverflow (operation : Overflow)
  /-- A value of a type that cannot be the key of a hash. -/
  | unhashable (type : TypeName)
  /-- Indexing into a value, or by a value, of the wrong type. -/
  | notIndexable (type : TypeName)
  | notCallable (type : TypeName)
  | argumentCount (got : Nat) (want : Arity)
  /-- An argument of a type that a built-in function does not handle. -/
  | unsupportedArgument (function : Builtin) (type : TypeName)
  /-- A first argument that ought to be an array. -/
  | notAnArray (function : Builtin) (type : TypeName)
  /-- Expressions nest deeper than `limit` while they run. -/
  | stackOverflow (limit : Nat)
deriving DecidableEq, Repr

namespace Fault

/-- The name of a fault's cause. -/
def label : Fault → String
  | unbound _ => "IdentifierNotFound"
  | unknownUnary .. => "UnknownPrefixOperator"
  | unknownBinary .. => "UnknownInfixOperator"
  | typeMismatch .. => "TypeMismatch"
  | divisionByZero => "DivisionByZero"
  | integerOverflow _ => "IntegerOverflow"
  | unhashable _ => "UnusableAsHashKey"
  | notIndexable _ => "IndexNotSupported"
  | notCallable _ => "NotAFunction"
  | argumentCount .. => "ArgumentCountMismatch"
  | unsupportedArgument .. => "UnsupportedArgument"
  | notAnArray .. => "ExpectedArrayArgument"
  | stackOverflow _ => "StackOverflow"

/-- The message for a fault. -/
def message : Fault → String
  | unbound name => "identifier not found: " ++ name
  | unknownUnary op operand => "unknown operator: " ++ op.symbol ++ operand.text
  | unknownBinary left op right =>
      "unknown operator: " ++ left.text ++ " " ++ op.symbol ++ " " ++ right.text
  | typeMismatch left op right =>
      "type mismatch: " ++ left.text ++ " " ++ op.symbol ++ " " ++ right.text
  | divisionByZero => "division by zero"
  | integerOverflow operation => "integer overflow: " ++ operation.text
  | unhashable type => "unusable as hash key: " ++ type.text
  | notIndexable type => "index operator not supported: " ++ type.text
  | notCallable type => "not a function: " ++ type.text
  | argumentCount got want =>
      "wrong number of arguments. got=" ++ toString got ++
        ", want=" ++ want.text
  | unsupportedArgument function type =>
      "argument to `" ++ function.name ++ "` not supported. got " ++ type.text
  | notAnArray function type =>
      "the first argument to `" ++ function.name ++ "` must be ARRAY. got=" ++
        type.text
  | stackOverflow limit =>
      "stack overflow: evaluation depth exceeded " ++ toString limit

end Fault

end Scriptlet
