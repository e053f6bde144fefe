/-
Diagnostics: what was wrong with a program text, and on which line.
-/
import Scriptlet.Text.Printable
import Scriptlet.Token.Basic

namespace Scriptlet

/-- What can be wrong with a program text. -/
inductive Problem where
  /-- The grammar asks for one token and another one stands there. -/
  | expectedToken (expected found : TokenKind)
  /-- No expression starts with this token. -/
  | noExpression (kind : TokenKind)
  /-- An integer literal that is not a 64-bit integer. -/
  | invalidInteger (literal : String)
  /-- Expressions nest deeper than `limit`. -/
  | nestingTooDeep (limit : Nat)
  /-- A token that could not be read. -/
  | illegalToken (message : String)
deriving DecidableEq, Repr

/-- A problem and the line it was found on. -/
structure Diagnostic where
  problem : Problem
  line : Nat
deriving DecidableEq, Repr

/-- The message for a problem, without its line. -/
def Problem.message : Problem → String
  | .expectedToken expected found =>
      "expected next token to be " ++ expected.name ++ ", got " ++
        found.name ++ " instead"
  | .noExpression kind =>
      "no prefix parse function for " ++ kind.name ++ " found"
  | .invalidInteger literal =>
      "could not parse " ++ Escaped.text literal ++ " as integer"
  | .nestingTooDeep limit =>
      "expression nesting exceeds " ++ toString limit ++ " levels"
  | .illegalToken message => "illegal token: " ++ message

/-- The message for a diagnostic, with its line in front. -/
def Diagnostic.render (diagnostic : Diagnostic) : String :=
  "line " ++ toString diagnostic.line ++ ": " ++ diagnostic.problem.message

end Scriptlet
