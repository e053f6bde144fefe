/-
The grammar of programs.  Expressions are read by binding strength: an
operator takes the expression in front of it when it binds more tightly than
what that expression is already an operand of.

Nesting is limited.  Every expression inside another one and every operator
folded into an expression takes one level from the levels left, and reading
recurs on the levels left.
-/
import Scriptlet.Integer
import Scriptlet.Parser.Basic
import Scriptlet.Parser.Precedence
import Scriptlet.Token.Piece

namespace Scriptlet

/-- The number of levels that expressions may nest. -/
def maxNesting : Nat := 512

/-- Reads an expression, all of whose operators bind more tightly than the
given strength, from its first token on. -/
abbrev ExprParser := Precedence → Token → Parser Diagnostic Expr

namespace Parser

variable {α : Type}

/-- Gives up because no levels are left. -/
def tooDeep : Parser Diagnostic α := reject (.nestingTooDeep maxNesting)

/-- Reads an expression from the next token on. -/
def operand (expr : ExprParser) (strength : Precedence) :
    Parser Diagnostic Expr := do
  expr strength (← next)

/-- `let NAME = E`, `return E` or `E`, with an optional semicolon. -/
def statement (expr : ExprParser) (first : Token) :
    Parser Diagnostic Statement := do
  let read ←
    if first.kind = .letWord then do
      let name ← expect .ident
      let _ ← expect .assign
      pure (.binding name.literal (← operand expr .lowest))
    else if first.kind = .returnWord then do
      pure (.returning (← operand expr .lowest))
    else do
      pure (.expression (← expr .lowest first))
  let _ ← skip .semicolon
  pure read

/-- Statements up to a closing token; malformed ones are left out. -/
def statements (expr : ExprParser) (closes : TokenKind → Bool) :
    Parser Empty (List Statement) :=
  manyUntil closes fun first => recover (statement expr first)

/-- The statements behind an opening brace and the closing brace. -/
def block (expr : ExprParser) : Parser Diagnostic Block :=
  always (statements expr (· == .rbrace))

/-- A key, a colon and a value. -/
def pair (expr : ExprParser) : Parser Diagnostic (Expr × Expr) := do
  let key ← operand expr .lowest
  let _ ← expect .colon
  pure (key, ← operand expr .lowest)

/-- `else` and a block, if they follow. -/
def elseBranch (expr : ExprParser) : Parser Diagnostic (Option Block) := do
  if ← skip .elseWord then
    let _ ← expect .lbrace
    pure (some (← block expr))
  else
    pure none

/-- An expression up to its first extension, from its first token on. -/
def primary (expr : ExprParser) (first : Token) : Parser Diagnostic Expr :=
  match first.kind.opening? with
  | none => reject (.noExpression first.kind)
  | some .identifier => pure (.identifier first.literal)
  | some .integer =>
      match Integer.ofText? first.literal with
      | some value => pure (.integer value)
      | none => reject (.invalidInteger first.literal)
  | some .string => pure (.string first.literal)
  | some (.boolean value) => pure (.boolean value)
  | some (.operator op) => do pure (.unary op (← operand expr .unary))
  | some .group => do
      let inner ← operand expr .lowest
      let _ ← expect .rparen
      pure inner
  | some .array =>
      do pure (.array (← delimited .rbracket .rbracket (operand expr .lowest)))
  | some .hash => do pure (.hash (← delimited .rbrace .comma (pair expr)))
  | some .conditional => do
      let _ ← expect .lparen
      let condition ← operand expr .lowest
      let _ ← expect .rparen
      let _ ← expect .lbrace
      let consequence ← block expr
      pure (.conditional condition consequence (← elseBranch expr))
  | some .function => do
      let _ ← expect .lparen
      let parameters ← delimited .rparen .rparen (expect .ident)
      let _ ← expect .lbrace
      pure (.function (parameters.map Token.literal) (← block expr))
  | some .illegal => reject (.illegalToken first.literal)

/-- The expression that `extension`, already read, makes of `left`. -/
def extended (expr : ExprParser) (left : Expr) :
    Extension → Parser Diagnostic Expr
  | .operator op => do pure (.binary op left (← operand expr op.precedence))
  | .arguments =>
      do pure (.call left (← delimited .rparen .rparen (operand expr .lowest)))
  | .position => do
      let position ← operand expr .lowest
      let _ ← expect .rbracket
      pure (.index left position)

/-- The next token's extension, if it binds more tightly than `strength`. -/
def extensionAbove (strength : Precedence) :
    Parser Diagnostic (Option Extension) := do
  let kind := (← peek).kind
  pure (if strength < kind.precedence then kind.extension? else none)

mutual

/-- Reads an expression with `levels` levels left. -/
def expr (levels : Nat) (strength : Precedence) (first : Token) :
    Parser Diagnostic Expr :=
  match levels with
  | 0 => tooDeep
  | levels + 1 => do extend levels strength (← primary (expr levels) first)

/-- Folds what follows `left` into it, as long as it binds more tightly than
`strength`. -/
def extend (levels : Nat) (strength : Precedence) (left : Expr) :
    Parser Diagnostic Expr := do
  match ← extensionAbove strength with
  | none => pure left
  | some extension =>
      match levels with
      | 0 => tooDeep
      | levels + 1 => do
          let _ ← next
          extend levels strength (← extended (expr levels) left extension)

end

/-- Every statement of a program. -/
def program : Parser Empty Program :=
  statements (expr maxNesting) fun _ => false

end Parser

/-- A program as far as it could be read, and what was wrong with the rest. -/
structure Parsed where
  program : Program
  diagnostics : List Diagnostic

namespace Parsed

/-- Reads a token stream as a program. -/
def ofStream (stream : TokenStream) : Parsed :=
  let outcome := Parser.program.run (.ofStream stream)
  ⟨outcome.value, outcome.diagnostics⟩

/-- Reads tokens as a program. -/
def ofTokens (tokens : List Token) : Parsed := ofStream (.ofTokens tokens)

/-- Reads source text as a program. -/
def ofSource (source : String) : Parsed := ofStream (.ofSource source)

end Parsed

end Scriptlet
