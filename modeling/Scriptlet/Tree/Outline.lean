/-
Outlines of program trees: every node as a parenthesised list that starts with
a word for the kind of node.
-/
import Scriptlet.Tree.Printer

namespace Scriptlet

/-- Words in parentheses. -/
def parenthesised (words : List String) : String :=
  "(" ++ " ".intercalate words ++ ")"

mutual

def Expr.outline : Expr → String
  | .identifier name => parenthesised ["id", name]
  | .integer value => Integer.toText value
  | .boolean value => boolText value
  | .string value => Quoted.quote value
  | .array elements => parenthesised ("array" :: outlineExprs elements)
  | .hash pairs => parenthesised ("hash" :: outlinePairs pairs)
  | .unary op operand => parenthesised ["prefix", op.symbol, operand.outline]
  | .binary op left right =>
      parenthesised ["infix", op.symbol, left.outline, right.outline]
  | .conditional condition consequence none =>
      parenthesised ["if", condition.outline,
        parenthesised ("block" :: outlineStatements consequence)]
  | .conditional condition consequence (some alternative) =>
      parenthesised ["if", condition.outline,
        parenthesised ("block" :: outlineStatements consequence),
        parenthesised ("block" :: outlineStatements alternative)]
  | .function parameters body =>
      parenthesised ["fn", parenthesised parameters,
        parenthesised ("block" :: outlineStatements body)]
  | .call callee arguments =>
      parenthesised ("call" :: callee.outline :: outlineExprs arguments)
  | .index collection position =>
      parenthesised ["index", collection.outline, position.outline]

def Statement.outline : Statement → String
  | .binding name value => parenthesised ["let", name, value.outline]
  | .returning value => parenthesised ["return", value.outline]
  | .expression value => parenthesised ["expr", value.outline]
  | .block body => parenthesised ("block" :: outlineStatements body)

def outlineStatements : List Statement → List String
  | [] => []
  | statement :: rest => statement.outline :: outlineStatements rest

def outlineExprs : List Expr → List String
  | [] => []
  | x :: xs => x.outline :: outlineExprs xs

def outlinePairs : List (Expr × Expr) → List String
  | [] => []
  | (key, value) :: rest =>
      parenthesised [key.outline, value.outline] :: outlinePairs rest

end

end Scriptlet
