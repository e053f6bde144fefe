/-
The grammar of programs, as derivations over tokens.

    program    = statement*
    statement  = ('let' IDENT '=' E | 'return' E | E) [';']
    block      = '{' statement* '}'
    E          = equality
    equality   = equality ('==' | '!=') comparison | comparison
    comparison = comparison ('<' | '>') sum | sum
    sum        = sum ('+' | '-') product | product
    product    = product ('*' | '/' | '%') unary | unary
    unary      = ('!' | '-') unary | chain
    chain      = chain '(' [E (',' E)*] ')' | chain '[' E ']' | primary
    primary    = IDENT | INT | STRING | 'true' | 'false' | '(' E ')'
               | '[' [E (',' E)*] ']' | '{' [E ':' E (',' E ':' E)*] '}'
               | 'if' '(' E ')' block ['else' block]
               | 'fn' '(' [IDENT (',' IDENT)*] ')' block

A derivation goes from the tokens in front of a phrase to the tokens behind it.
The closing brace of a block may be missing where no token is left.
-/
import Scriptlet.Parser.Grammar

namespace Scriptlet

/-- The levels of expressions, from the loosest to the tightest. -/
inductive Level where
  | equality
  | comparison
  | sum
  | product
  | unary
  | chain
deriving DecidableEq, Repr

namespace Level

/-- The next level: that of the operands of a level's operators. -/
def tighter : Level → Level
  | equality => comparison
  | comparison => sum
  | sum => product
  | product => unary
  | unary | chain => chain

/-- The operators of a level, each with its token. -/
def operator? : Level → TokenKind → Option BinaryOp
  | equality, .eq => some .equal
  | equality, .notEq => some .notEqual
  | comparison, .lt => some .less
  | comparison, .gt => some .greater
  | sum, .plus => some .add
  | sum, .minus => some .sub
  | product, .asterisk => some .mul
  | product, .slash => some .div
  | product, .percent => some .mod
  | _, _ => none

end Level

/-- The operators that stand in front of an operand, each with its token. -/
def signOf? : TokenKind → Option UnaryOp
  | .bang => some .not
  | .minus => some .negate
  | _ => none

/-- `(',' IDENT)*` -/
inductive FurtherNames : List Token → List Token → List String → Prop
  | nil {rest : List Token} : FurtherNames rest rest []
  | cons {comma name : Token} {tokens rest : List Token} {names : List String}
      (hcomma : comma.kind = .comma) (hname : name.kind = .ident)
      (others : FurtherNames tokens rest names) :
      FurtherNames (comma :: name :: tokens) rest (name.literal :: names)

/-- `[IDENT (',' IDENT)*]` -/
inductive Names : List Token → List Token → List String → Prop
  | none {rest : List Token} : Names rest rest []
  | some {name : Token} {tokens rest : List Token} {names : List String}
      (hname : name.kind = .ident) (others : FurtherNames tokens rest names) :
      Names (name :: tokens) rest (name.literal :: names)

section

variable (ends : List Token → Prop)

mutual

/-- Expressions of a level.  Where a statement has no semicolon, `ends` is asked
of the tokens behind it. -/
inductive Phrase : Level → List Token → List Token → Expr → Type
  | identifier {token : Token} {rest : List Token}
      (hkind : token.kind = .ident) :
      Phrase .chain (token :: rest) rest (.identifier token.literal)
  | integer {token : Token} {rest : List Token} {value : Int64}
      (hkind : token.kind = .int)
      (hvalue : Integer.ofText? token.literal = some value) :
      Phrase .chain (token :: rest) rest (.integer value)
  | string {token : Token} {rest : List Token} (hkind : token.kind = .string) :
      Phrase .chain (token :: rest) rest (.string token.literal)
  | truth {token : Token} {rest : List Token} (hkind : token.kind = .trueWord) :
      Phrase .chain (token :: rest) rest (.boolean true)
  | falsity {token : Token} {rest : List Token}
      (hkind : token.kind = .falseWord) :
      Phrase .chain (token :: rest) rest (.boolean false)
  | group {opening closing : Token} {tokens rest : List Token} {e : Expr}
      (hopen : opening.kind = .lparen)
      (inner : Phrase .equality tokens (closing :: rest) e)
      (hclose : closing.kind = .rparen) :
      Phrase .chain (opening :: tokens) rest e
  | array {opening closing : Token} {tokens rest : List Token}
      {elements : List Expr} (hopen : opening.kind = .lbracket)
      (items : Items tokens (closing :: rest) elements)
      (hclose : closing.kind = .rbracket) :
      Phrase .chain (opening :: tokens) rest (.array elements)
  | hash {opening closing : Token} {tokens rest : List Token}
      {pairs : List (Expr × Expr)} (hopen : opening.kind = .lbrace)
      (entries : Entries tokens (closing :: rest) pairs)
      (hclose : closing.kind = .rbrace) :
      Phrase .chain (opening :: tokens) rest (.hash pairs)
  | conditional {word opening closing brace : Token}
      {tokens tokens' rest : List Token} {condition : Expr}
      {consequence : Block}
      (hword : word.kind = .ifWord) (hopen : opening.kind = .lparen)
      (test : Phrase .equality tokens (closing :: brace :: tokens') condition)
      (hclose : closing.kind = .rparen) (hbrace : brace.kind = .lbrace)
      (body : Sentences true tokens' rest consequence) :
      Phrase .chain (word :: opening :: tokens) rest
        (.conditional condition consequence none)
  | alternative {word opening closing brace word' brace' : Token}
      {tokens tokens' tokens'' rest : List Token}
      {condition : Expr} {consequence alternative : Block}
      (hword : word.kind = .ifWord) (hopen : opening.kind = .lparen)
      (test : Phrase .equality tokens (closing :: brace :: tokens') condition)
      (hclose : closing.kind = .rparen) (hbrace : brace.kind = .lbrace)
      (body : Sentences true tokens' (word' :: brace' :: tokens'') consequence)
      (hword' : word'.kind = .elseWord) (hbrace' : brace'.kind = .lbrace)
      (body' : Sentences true tokens'' rest alternative) :
      Phrase .chain (word :: opening :: tokens) rest
        (.conditional condition consequence (some alternative))
  | function {word opening closing brace : Token}
      {tokens tokens' rest : List Token} {parameters : List String}
      {body : Block}
      (hword : word.kind = .functionWord) (hopen : opening.kind = .lparen)
      (names : Names tokens (closing :: brace :: tokens') parameters)
      (hclose : closing.kind = .rparen) (hbrace : brace.kind = .lbrace)
      (sentences : Sentences true tokens' rest body) :
      Phrase .chain (word :: opening :: tokens) rest (.function parameters body)
  | call {opening closing : Token} {tokens tokens' rest : List Token}
      {callee : Expr} {arguments : List Expr}
      (left : Phrase .chain tokens (opening :: tokens') callee)
      (hopen : opening.kind = .lparen)
      (items : Items tokens' (closing :: rest) arguments)
      (hclose : closing.kind = .rparen) :
      Phrase .chain tokens rest (.call callee arguments)
  | index {opening closing : Token} {tokens tokens' rest : List Token}
      {collection position : Expr}
      (left : Phrase .chain tokens (opening :: tokens') collection)
      (hopen : opening.kind = .lbracket)
      (inner : Phrase .equality tokens' (closing :: rest) position)
      (hclose : closing.kind = .rbracket) :
      Phrase .chain tokens rest (.index collection position)
  | unary {token : Token} {tokens rest : List Token} {op : UnaryOp} {e : Expr}
      (hop : signOf? token.kind = some op)
      (operand : Phrase .unary tokens rest e) :
      Phrase .unary (token :: tokens) rest (.unary op e)
  | binary {level : Level} {token : Token} {tokens tokens' rest : List Token}
      {op : BinaryOp} {l r : Expr}
      (left : Phrase level tokens (token :: tokens') l)
      (hop : level.operator? token.kind = some op)
      (right : Phrase level.tighter tokens' rest r) :
      Phrase level tokens rest (.binary op l r)
  | tighter {level : Level} {tokens rest : List Token} {e : Expr}
      (inner : Phrase level.tighter tokens rest e) :
      Phrase level tokens rest e

/-- `[E (',' E)*]` -/
inductive Items : List Token → List Token → List Expr → Type
  | none {rest : List Token} : Items rest rest []
  | some {tokens tokens' rest : List Token} {e : Expr} {es : List Expr}
      (first : Phrase .equality tokens tokens' e)
      (others : FurtherItems tokens' rest es) :
      Items tokens rest (e :: es)

/-- `(',' E)*` -/
inductive FurtherItems : List Token → List Token → List Expr → Type
  | nil {rest : List Token} : FurtherItems rest rest []
  | cons {comma : Token} {tokens tokens' rest : List Token} {e : Expr}
      {es : List Expr} (hcomma : comma.kind = .comma)
      (first : Phrase .equality tokens tokens' e)
        (others : FurtherItems tokens' rest es) :
      FurtherItems (comma :: tokens) rest (e :: es)

/-- `[E ':' E (',' E ':' E)*]` -/
inductive Entries : List Token → List Token → List (Expr × Expr) → Type
  | none {rest : List Token} : Entries rest rest []
  | some {colon : Token} {tokens tokens' tokens'' rest : List Token}
      {k v : Expr} {pairs : List (Expr × Expr)}
      (key : Phrase .equality tokens (colon :: tokens') k)
        (hcolon : colon.kind = .colon)
      (value : Phrase .equality tokens' tokens'' v)
      (others : FurtherEntries tokens'' rest pairs) :
      Entries tokens rest ((k, v) :: pairs)

/-- `(',' E ':' E)*` -/
inductive FurtherEntries : List Token → List Token → List (Expr × Expr) → Type
  | nil {rest : List Token} : FurtherEntries rest rest []
  | cons {comma colon : Token} {tokens tokens' tokens'' rest : List Token}
      {k v : Expr} {pairs : List (Expr × Expr)}
      (hcomma : comma.kind = .comma)
      (key : Phrase .equality tokens (colon :: tokens') k)
        (hcolon : colon.kind = .colon)
      (value : Phrase .equality tokens' tokens'' v)
      (others : FurtherEntries tokens'' rest pairs) :
      FurtherEntries (comma :: tokens) rest ((k, v) :: pairs)

/-- `'let' IDENT '=' E`, `'return' E` or `E` -/
inductive Clause : List Token → List Token → Statement → Type
  | binding {word name sign : Token} {tokens rest : List Token} {e : Expr}
      (hword : word.kind = .letWord) (hname : name.kind = .ident)
      (hsign : sign.kind = .assign) (value : Phrase .equality tokens rest e) :
      Clause (word :: name :: sign :: tokens) rest (.binding name.literal e)
  | returning {word : Token} {tokens rest : List Token} {e : Expr}
      (hword : word.kind = .returnWord)
      (value : Phrase .equality tokens rest e) :
      Clause (word :: tokens) rest (.returning e)
  | expression {tokens rest : List Token} {e : Expr}
      (value : Phrase .equality tokens rest e) :
      Clause tokens rest (.expression e)

/-- `statement*` up to and with the closing brace, if `braced`, or up to the end
of input. -/
inductive Sentences : Bool → List Token → List Token → List Statement → Type
  | closed {token : Token} {rest : List Token} (hclose : token.kind = .rbrace) :
      Sentences true (token :: rest) rest []
  | ended {braced : Bool} : Sentences braced [] [] []
  | terminated {braced : Bool} {token : Token}
      {tokens tokens' rest : List Token} {s : Statement} {ss : List Statement}
      (first : Clause tokens (token :: tokens') s)
        (hsemicolon : token.kind = .semicolon)
      (others : Sentences braced tokens' rest ss) :
      Sentences braced tokens rest (s :: ss)
  | bare {braced : Bool} {tokens tokens' rest : List Token}
      {s : Statement} {ss : List Statement}
      (first : Clause tokens tokens' s) (hends : ends tokens')
      (others : Sentences braced tokens' rest ss) :
      Sentences braced tokens rest (s :: ss)

end

end

namespace Level

/-- The strongest binding under which an expression of the level is read
whole. -/
def floor : Level → Precedence
  | equality => .lowest
  | comparison => .equals
  | sum => .lessGreater
  | product => .sum
  | unary | chain => .unary

/-- The tightest binding of a token that may stand behind an expression of the
level. -/
def ceiling : Level → Precedence
  | equality => .equals
  | comparison => .lessGreater
  | sum => .sum
  | product => .product
  | unary => .unary
  | chain => .index

theorem floor_le_tighter (level : Level) :
    level.floor.rank ≤ level.tighter.floor.rank := by
  cases level <;> decide

theorem ceiling_le_tighter (level : Level) :
    level.ceiling.rank ≤ level.tighter.ceiling.rank := by
  cases level <;> decide

/-- A level's operators bind just between the level and the next one. -/
theorem operator?_eq_some {level : Level} {kind : TokenKind} {op : BinaryOp}
    (h : level.operator? kind = some op) :
    kind.extension? = some (.operator op) ∧ op.precedence = level.ceiling ∧
      level.floor.rank < level.ceiling.rank ∧
      level.ceiling.rank ≤ level.tighter.floor.rank := by
  unfold operator? at h
  split at h <;> first | (cases h; decide) | cases h

end Level

/-- The tokens derive the program. -/
def Derives (ends : List Token → Prop) (tokens : List Token)
    (program : Program) : Prop :=
  Nonempty (Sentences ends false tokens [] program)

/-- What may stand behind a statement without a semicolon so that nothing of it
is taken into the statement. -/
def Separated (rest : List Token) : Prop :=
  match rest with
  | [] => True
  | token :: _ => token.kind = .rbrace ∨ token.kind.extension? = none

end Scriptlet
