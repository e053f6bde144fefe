/-
What operators and indexing do with values.
-/
import Scriptlet.Value.Equality

namespace Scriptlet

/-- The exact result of an operation on integers, or a fault if it is out of
range. -/
def inRange (operation : Overflow) (result : Int) : Except Fault Value :=
  match Integer.ofInt? result with
  | some value => .ok (.integer value)
  | none => .error (.integerOverflow operation)

namespace UnaryOp

/-- `!` negates truthiness; `-` is for integers only. -/
def apply : UnaryOp → Value → Except Fault Value
  | not, operand => .ok (.boolean !operand.isTruthy)
  | negate, .integer n => inRange (.negation n) (-n.toInt)
  | negate, operand => .error (.unknownUnary negate operand.typeName)

end UnaryOp

namespace BinaryOp

/-- Operators on integers.  Division goes toward zero, and a remainder is only
taken where the quotient is in range. -/
def onIntegers (op : BinaryOp) (left right : Int64) : Except Fault Value :=
  let exactly := inRange (.operation left op right)
  match op with
  | add => exactly (left.toInt + right.toInt)
  | sub => exactly (left.toInt - right.toInt)
  | mul => exactly (left.toInt * right.toInt)
  | div =>
      if right = 0 then .error .divisionByZero
      else exactly (left.toInt.tdiv right.toInt)
  | mod =>
      if right = 0 then .error .divisionByZero
      else do
        let _ ← exactly (left.toInt.tdiv right.toInt)
        exactly (left.toInt.tmod right.toInt)
  | less => .ok (.boolean (left.toInt < right.toInt))
  | greater => .ok (.boolean (right.toInt < left.toInt))
  | equal => .ok (.boolean (left == right))
  | notEqual => .ok (.boolean (left != right))

/-- Operators on strings. -/
def onStrings (op : BinaryOp) (left right : String) : Except Fault Value :=
  match op with
  | add => .ok (.string (left ++ right))
  | equal => .ok (.boolean (left == right))
  | notEqual => .ok (.boolean (left != right))
  | _ => .error (.unknownBinary .string op .string)

/-- Operators on two other values of one type. -/
def onValues (op : BinaryOp) (left right : Value) : Except Fault Value :=
  match op with
  | equal => .ok (.boolean (left == right))
  | notEqual => .ok (.boolean (left != right))
  | _ => .error (.unknownBinary left.typeName op right.typeName)

def apply (op : BinaryOp) (left right : Value) : Except Fault Value :=
  match left, right with
  | .integer l, .integer r => op.onIntegers l r
  | .string l, .string r => op.onStrings l r
  | left, right =>
      if left.typeName ≠ right.typeName then
        .error (.typeMismatch left.typeName op right.typeName)
      else op.onValues left right

end BinaryOp

namespace Value

/-- An element of an array by position or of a hash by key; `null` where there
is none. -/
def index : Value → Value → Except Fault Value
  | array elements, integer i =>
      .ok (((Integer.toIndex? i).bind fun position =>
        elements[position]?).getD null)
  | hash entries, key => do
      let key ← key.toKey
      .ok ((Table.find? key entries).getD null)
  | other, _ => .error (.notIndexable other.typeName)

end Value

end Scriptlet
