/-
Values as programs print them.
-/
import Scriptlet.Value.Basic

namespace Scriptlet

/-- A function's parameters and body; where it was made is not shown. -/
def Closure.inspect (closure : Closure) : String :=
  "fn(" ++ commaSeparated closure.parameters ++ ") "
    ++ braced closure.body (renderStatements closure.body)

mutual

/-- The text that a program prints for a value. -/
def Value.inspect : Value → String
  | .null => "null"
  | .integer value => Integer.toText value
  | .boolean value => boolText value
  | .string value => value
  | .array elements => "[" ++ commaSeparated (inspectValues elements) ++ "]"
  | .hash entries => "\x7b" ++ commaSeparated (inspectEntries entries) ++ "\x7d"
  | .function closure => closure.inspect
  | .builtin _ => "builtin function"
  | .returning value => value.inspect
  | .fault fault => "ERROR: " ++ fault.message

def inspectValues : List Value → List String
  | [] => []
  | value :: rest => value.inspect :: inspectValues rest

def inspectEntries : List (HashKey × Value) → List String
  | [] => []
  | (key, value) :: rest =>
      (key.text ++ ": " ++ value.inspect) :: inspectEntries rest

end

end Scriptlet
