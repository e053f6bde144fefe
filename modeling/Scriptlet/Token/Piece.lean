/-
Reading source text as tokens.  The text is cut into pieces: a piece is a gap
between tokens or the spelling of one token, and it keeps the text it was cut
from, so that the pieces of a source, put together again, are the source.  The
tokens are the pieces without the gaps, each on the line where it starts.
-/
import Scriptlet.Text.Quoted
import Scriptlet.Token.Basic

namespace Scriptlet

/-- A stretch of source text. -/
inductive Piece where
  | gap (text : List Char)
  | token (kind : TokenKind) (literal : String) (text : List Char)
deriving DecidableEq, Repr

/-- The number of line feeds in a text. -/
def lineFeeds (text : List Char) : Nat := text.count '\n'

namespace Piece

/-- The source text of a piece. -/
def text : Piece → List Char
  | gap text => text
  | token _ _ text => text

/-- Characters that separate tokens and mean nothing else. -/
def isBlank (c : Char) : Bool :=
  c == ' ' || c == '\t' || c == '\r' || c == '\x0c' || c == '\n'

/-- Characters of identifiers and keywords. -/
def isWordChar (c : Char) : Bool := c.isAlpha || c == '_'

/-- What is reported for a string literal without its closing quote. -/
def unterminated : String := "string literal not terminated"

/-- The string token that starts with a quote followed by `body`. -/
def ofStringBody (body : List Char) : Piece :=
  match Quoted.contents? body with
  | some contents => token .string (String.ofList contents) ('"' :: body)
  | none => token .illegal unterminated ('"' :: body)

/-- Cuts the first piece off the text `c :: cs`, always the longest one. -/
def read (c : Char) (cs : List Char) : Piece × List Char :=
  if isBlank c then
    (gap (c :: cs.takeWhile isBlank), cs.dropWhile isBlank)
  else if isWordChar c then
    let word := c :: cs.takeWhile isWordChar
    (token (.ofWord (String.ofList word)) (String.ofList word) word,
      cs.dropWhile isWordChar)
  else if c.isDigit then
    let digits := c :: cs.takeWhile Char.isDigit
    (token .int (String.ofList digits) digits, cs.dropWhile Char.isDigit)
  else if c = '"' then
    let (body, after) := Quoted.spanBody cs
    (ofStringBody body, after)
  else match c, cs with
    | '/', '/' :: rest =>
        (gap ('/' :: '/' :: rest.takeWhile (· != '\n')),
          rest.dropWhile (· != '\n'))
    | '=', '=' :: rest => (token .eq "==" ['=', '='], rest)
    | '!', '=' :: rest => (token .notEq "!=" ['!', '='], rest)
    | c, rest => (token (.ofSymbol c) (String.singleton c) [c], rest)

@[simp] theorem text_ofStringBody (body : List Char) :
    (ofStringBody body).text = '"' :: body := by
  unfold ofStringBody
  split <;> rfl

/-- Nothing is lost in cutting off a piece. -/
theorem text_read_append (c : Char) (cs : List Char) :
    (read c cs).1.text ++ (read c cs).2 = c :: cs := by
  unfold read
  split
  · simp [text]
  split
  · simp [text]
  split
  · simp [text]
  split
  · next hquote => simp [hquote, Quoted.spanBody_append]
  split <;> simp [text]

theorem text_read_ne_nil (c : Char) (cs : List Char) :
    (read c cs).1.text ≠ [] := by
  unfold read
  split
  · simp [text]
  split
  · simp [text]
  split
  · simp [text]
  split
  · simp
  split <;> simp [text]

theorem length_rest_lt (c : Char) (cs : List Char) :
    (read c cs).2.length < (c :: cs).length := by
  have hne := List.length_pos_iff.2 (text_read_ne_nil c cs)
  have hlen := congrArg List.length (text_read_append c cs)
  rw [List.length_append] at hlen
  omega

/-- All the pieces of a text. -/
def cut : List Char → List Piece
  | [] => []
  | c :: cs => (read c cs).1 :: cut (read c cs).2
termination_by text => text.length
decreasing_by exact length_rest_lt c cs

/-- The pieces of a text, put together again, are the text. -/
theorem flatMap_text_cut (source : List Char) :
    (cut source).flatMap text = source := by
  fun_induction cut source with
  | case1 => rfl
  | case2 c cs ih => rw [List.flatMap_cons, ih, text_read_append]

/-- The tokens among `pieces`, the first of which starts on `line`. -/
def tokens (line : Nat) : List Piece → List Token
  | [] => []
  | gap text :: rest => tokens (line + lineFeeds text) rest
  | token kind literal text :: rest =>
      ⟨kind, literal, line⟩ :: tokens (line + lineFeeds text) rest

end Piece

namespace TokenStream

/-- The tokens of a source text; lines count from one. -/
def ofSource (source : String) : TokenStream where
  tokens := Piece.tokens 1 (Piece.cut source.toList)
  endLine := 1 + lineFeeds source.toList

/-- Tokens given one by one, with nothing known about the line they end on. -/
def ofTokens (tokens : List Token) : TokenStream := ⟨tokens, 0⟩

end TokenStream

end Scriptlet
