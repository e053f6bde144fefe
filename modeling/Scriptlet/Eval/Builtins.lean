/-
What the built-in functions do.
-/
import Scriptlet.Store
import Scriptlet.Value.Printer

namespace Scriptlet

namespace Builtin

/-- A length as an integer. -/
def ofLength (length : Nat) : Except Fault Int64 :=
  match Integer.ofInt? length with
  | some value => .ok value
  | none => .error (.integerOverflow (.length length))

/-- The elements of an argument that has to be an array. -/
def elements (function : Builtin) : Value → Except Fault (List Value)
  | .array elements => .ok elements
  | other => .error (.notAnArray function other.typeName)

/-- The bytes of a string, or the elements of an array, counted. -/
def lenOf : Value → Except Fault Value
  | .string text => .integer <$> ofLength text.utf8ByteSize
  | .array elements => .integer <$> ofLength elements.length
  | other => .error (.unsupportedArgument len other.typeName)

/-- All elements but the first; `null` if there are none. -/
def restOf (argument : Value) : Except Fault Value := do
  match ← elements rest argument with
  | [] => return .null
  | _ :: others => return .array others

/-- Prints every argument on a line of its own. -/
def printAll (arguments : List Value) : EvalM Unit :=
  arguments.forM fun argument => modify (·.print argument.inspect)

/-- Calls a built-in function. -/
def call (function : Builtin) (arguments : List Value) : EvalM Value :=
  match function, arguments with
  | len, [argument] => EvalM.ofExcept (lenOf argument)
  | push, argument :: value :: values => EvalM.ofExcept do
      return .array ((← elements push argument) ++ value :: values)
  | first, [argument] => EvalM.ofExcept do
      return (← elements first argument).head?.getD .null
  | last, [argument] => EvalM.ofExcept do
      return (← elements last argument).getLast?.getD .null
  | rest, [argument] => EvalM.ofExcept (restOf argument)
  | puts, arguments => do
      printAll arguments
      return .null
  | function, arguments =>
      throw (.argumentCount arguments.length function.arity)

end Builtin

end Scriptlet
