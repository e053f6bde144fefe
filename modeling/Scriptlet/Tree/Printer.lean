/-
The canonical text of a program.  Every operator application and every index
stands in parentheses, so reading the text gives back the tree.
-/
import Scriptlet.Integer
import Scriptlet.Text.Quoted
import Scriptlet.Tree.Basic

namespace Scriptlet

/-- `true` or `false`. -/
def boolText (b : Bool) : String := if b then "true" else "false"

/-- A comma and a space between neighbours. -/
def commaSeparated (items : List String) : String := ", ".intercalate items

/-- The statements of `body`, written as `text`, in braces. -/
def braced (body : Block) (text : String) : String :=
  if body.isEmpty then "\x7b\x7d" else "\x7b " ++ text ++ " \x7d"

/-- Whether a statement needs a semicolon when another one follows: a `let` or
`return` brings its own. -/
def Statement.needsSemicolon : Statement → Bool
  | .binding .. | .returning .. => false
  | .expression .. | .block .. => true

mutual

def Expr.render : Expr → String
  | .identifier name => name
  | .integer value => Integer.toText value
  | .boolean value => boolText value
  | .string value => Quoted.quote value
  | .array elements => "[" ++ commaSeparated (renderExprs elements) ++ "]"
  | .hash pairs => "\x7b" ++ commaSeparated (renderPairs pairs) ++ "\x7d"
  | .unary op operand => "(" ++ op.symbol ++ operand.render ++ ")"
  | .binary op left right =>
      "(" ++ left.render ++ " " ++ op.symbol ++ " " ++ right.render ++ ")"
  | .conditional condition consequence none =>
      "if (" ++ condition.render ++ ") " ++ braced consequence
        (renderStatements consequence)
  | .conditional condition consequence (some alternative) =>
      "if (" ++ condition.render ++ ") " ++ braced consequence
        (renderStatements consequence) ++ " else " ++ braced alternative
        (renderStatements alternative)
  | .function parameters body =>
      "fn(" ++ commaSeparated parameters ++ ") " ++ braced body
        (renderStatements body)
  | .call callee arguments =>
      callee.render ++ "(" ++ commaSeparated (renderExprs arguments) ++ ")"
  | .index collection position =>
      "(" ++ collection.render ++ "[" ++ position.render ++ "])"

def Statement.render : Statement → String
  | .binding name value => "let " ++ name ++ " = " ++ value.render ++ ";"
  | .returning value => "return " ++ value.render ++ ";"
  | .expression value => value.render
  | .block body => braced body (renderStatements body)

/-- Statements with a space between neighbours. -/
def renderStatements : List Statement → String
  | [] => ""
  | [statement] => statement.render
  | statement :: rest =>
      statement.render ++ (if statement.needsSemicolon then "; " else " ")
        ++ renderStatements rest

def renderExprs : List Expr → List String
  | [] => []
  | x :: xs => x.render :: renderExprs xs

def renderPairs : List (Expr × Expr) → List String
  | [] => []
  | (key, value) :: rest =>
      (key.render ++ ": " ++ value.render) :: renderPairs rest

end

/-- The canonical text of a program. -/
def Program.render (program : Program) : String := renderStatements program

end Scriptlet
