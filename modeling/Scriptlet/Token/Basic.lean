/-
Tokens: the kinds of word the language is written in, and one word of a
program together with the line it starts on.
-/

namespace Scriptlet

/-- The kinds of token. -/
inductive TokenKind where
  | illegal
  | eof
  | ident
  | int
  | string
  | assign
  | plus
  | minus
  | bang
  | asterisk
  | slash
  | percent
  | lt
  | gt
  | eq
  | notEq
  | comma
  | colon
  | semicolon
  | lparen
  | rparen
  | lbrace
  | rbrace
  | lbracket
  | rbracket
  | functionWord
  | letWord
  | trueWord
  | falseWord
  | ifWord
  | elseWord
  | returnWord
deriving DecidableEq, Repr

namespace TokenKind

/-- The name of a kind in messages: its spelling if it has only one, otherwise
a word in capitals. -/
def name : TokenKind → String
  | illegal => "ILLEGAL"
  | eof => "EOF"
  | ident => "IDENT"
  | int => "INT"
  | string => "STRING"
  | assign => "="
  | plus => "+"
  | minus => "-"
  | bang => "!"
  | asterisk => "*"
  | slash => "/"
  | percent => "%"
  | lt => "<"
  | gt => ">"
  | eq => "=="
  | notEq => "!="
  | comma => ","
  | colon => ":"
  | semicolon => ";"
  | lparen => "("
  | rparen => ")"
  | lbrace => "\x7b"
  | rbrace => "\x7d"
  | lbracket => "["
  | rbracket => "]"
  | functionWord => "FUNCTION"
  | letWord => "LET"
  | trueWord => "TRUE"
  | falseWord => "FALSE"
  | ifWord => "IF"
  | elseWord => "ELSE"
  | returnWord => "RETURN"

/-- Every kind, in a fixed order. -/
def all : List TokenKind :=
  [illegal, eof, ident, int, string, assign, plus, minus, bang, asterisk,
    slash, percent, lt, gt, eq, notEq, comma, colon, semicolon, lparen,
    rparen, lbrace, rbrace, lbracket, rbracket, functionWord, letWord,
    trueWord, falseWord, ifWord, elseWord, returnWord]

theorem mem_all (kind : TokenKind) : kind ∈ all := by
  cases kind <;> decide

/-- The kind with a given name. -/
def ofName? (name : String) : Option TokenKind :=
  all.find? fun kind => kind.name == name

/-- The words that are not identifiers, with their kinds. -/
def keywords : List (String × TokenKind) :=
  [("fn", functionWord), ("let", letWord), ("true", trueWord),
    ("false", falseWord), ("if", ifWord), ("else", elseWord),
    ("return", returnWord)]

/-- The kind of a word made of letters and underscores. -/
def ofWord (word : String) : TokenKind :=
  (keywords.lookup word).getD ident

/-- The kind of a token spelled with the single character `c`. -/
def ofSymbol : Char → TokenKind
  | '=' => assign
  | '+' => plus
  | '-' => minus
  | '!' => bang
  | '*' => asterisk
  | '/' => slash
  | '%' => percent
  | '<' => lt
  | '>' => gt
  | ',' => comma
  | ':' => colon
  | ';' => semicolon
  | '(' => lparen
  | ')' => rparen
  | '\x7b' => lbrace
  | '\x7d' => rbrace
  | '[' => lbracket
  | ']' => rbracket
  | _ => illegal

end TokenKind

/-- One token.  The literal is the token's text with the escapes of a string
resolved, or, for a token that could not be read, what is wrong with it. -/
structure Token where
  kind : TokenKind
  literal : String
  line : Nat
deriving DecidableEq, Repr

/-- Tokens followed by end-of-input tokens without end, all on one line. -/
structure TokenStream where
  tokens : List Token
  endLine : Nat
deriving DecidableEq, Repr

namespace TokenStream

/-- The token that stands for the end of input. -/
def eof (stream : TokenStream) : Token := ⟨.eof, "", stream.endLine⟩

/-- The tokens and `count` of the end-of-input tokens behind them. -/
def take (stream : TokenStream) (count : Nat) : List Token :=
  stream.tokens ++ List.replicate count stream.eof

end TokenStream

end Scriptlet
