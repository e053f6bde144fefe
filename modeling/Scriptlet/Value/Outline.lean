/-
Outlines of values: what a value is made of, with strings in quotes and
functions by their outline.
-/
import Scriptlet.Tree.Outline
import Scriptlet.Value.Basic

namespace Scriptlet

def HashKey.outline : HashKey → String
  | integer value => Integer.toText value
  | boolean value => boolText value
  | string value => Quoted.quote value

def Closure.outline (closure : Closure) : String :=
  (Expr.function closure.parameters closure.body).outline

mutual

def Value.outline : Value → String
  | .null => "null"
  | .integer value => Integer.toText value
  | .boolean value => boolText value
  | .string value => Quoted.quote value
  | .array elements => "[" ++ commaSeparated (outlineValues elements) ++ "]"
  | .hash entries => "\x7b" ++ commaSeparated (outlineEntries entries) ++ "\x7d"
  | .function closure => closure.outline
  | .builtin builtin => "builtin:" ++ builtin.name
  | .returning value => "return(" ++ value.outline ++ ")"
  | .fault fault => "error(" ++ fault.label ++ ": " ++ fault.message ++ ")"

def outlineValues : List Value → List String
  | [] => []
  | value :: rest => value.outline :: outlineValues rest

def outlineEntries : List (HashKey × Value) → List String
  | [] => []
  | (key, value) :: rest =>
      (key.outline ++ ": " ++ value.outline) :: outlineEntries rest

end

end Scriptlet
