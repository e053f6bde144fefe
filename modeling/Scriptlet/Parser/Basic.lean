/-
Parsers over a token stream.  A parser reads tokens from the front, may record
diagnostics on the way, and ends with a value or an error; it carries the
proof that it never puts a token back.  That proof is what makes the two
repetitions below, over statements and over comma separated items, end.
-/
import Scriptlet.Diagnostic

namespace Scriptlet

/-- A position in a token stream: the tokens still to be read, the line the
stream ends on, and the line of the token read last. -/
structure Cursor where
  unread : List Token
  endLine : Nat
  line : Nat
deriving DecidableEq, Repr

namespace Cursor

def ofStream (stream : TokenStream) : Cursor :=
  ⟨stream.tokens, stream.endLine, stream.endLine⟩

/-- The next token, without reading it. -/
def peek (cursor : Cursor) : Token :=
  cursor.unread.headD ⟨.eof, "", cursor.endLine⟩

/-- Reads the next token. -/
def advance (cursor : Cursor) : Cursor :=
  { cursor with unread := cursor.unread.tail, line := cursor.peek.line }

/-- The number of tokens still to be read. -/
def remaining (cursor : Cursor) : Nat := cursor.unread.length

theorem remaining_advance_le (cursor : Cursor) :
    cursor.advance.remaining ≤ cursor.remaining := by
  simp [advance, remaining]

theorem remaining_advance_lt {cursor : Cursor} {token : Token}
    {rest : List Token} (h : cursor.unread = token :: rest) :
    cursor.advance.remaining < cursor.remaining := by
  simp [advance, remaining, h]

end Cursor

/-- How a parser ended: with a value or an error, after recording some
diagnostics, at a position. -/
structure Outcome (ε α : Type) where
  result : Except ε α
  diagnostics : List Diagnostic
  rest : Cursor

namespace Outcome

variable {ε α β : Type}

/-- The same outcome with `f` applied to the value. -/
def map (f : α → β) (outcome : Outcome ε α) : Outcome ε β :=
  ⟨outcome.result.map f, outcome.diagnostics, outcome.rest⟩

/-- The same outcome after diagnostics recorded earlier. -/
def after (earlier : List Diagnostic) (outcome : Outcome ε α) : Outcome ε α :=
  { outcome with diagnostics := earlier ++ outcome.diagnostics }

/-- The value of an outcome that cannot be an error. -/
def value (outcome : Outcome Empty α) : α :=
  match outcome.result with
  | .ok a => a

@[simp] theorem rest_map (f : α → β) (outcome : Outcome ε α) :
    (outcome.map f).rest = outcome.rest := rfl

@[simp] theorem rest_after (earlier : List Diagnostic) (outcome : Outcome ε α) :
    (outcome.after earlier).rest = outcome.rest := rfl

end Outcome

/-- A parser with errors in `ε`; one with errors in `Empty` cannot fail. -/
structure Parser (ε α : Type) where
  run : Cursor → Outcome ε α
  remaining_le : ∀ cursor, (run cursor).rest.remaining ≤ cursor.remaining

namespace Parser

variable {ε α β : Type}

/-- Reads nothing and gives `a`. -/
protected def pure (a : α) : Parser ε α where
  run cursor := ⟨.ok a, [], cursor⟩
  remaining_le _ := Nat.le_refl _

/-- What `bind` does with the outcome of its first part. -/
def continueWith (next : α → Parser ε β) (outcome : Outcome ε α) :
    Outcome ε β :=
  match outcome.result with
  | .error e => ⟨.error e, outcome.diagnostics, outcome.rest⟩
  | .ok a => ((next a).run outcome.rest).after outcome.diagnostics

/-- One parser after the other; an error ends the whole. -/
protected def bind (first : Parser ε α) (next : α → Parser ε β) :
    Parser ε β where
  run cursor := continueWith next (first.run cursor)
  remaining_le cursor := by
    have hfirst := first.remaining_le cursor
    unfold continueWith
    split
    · exact hfirst
    · next a _ => exact Nat.le_trans ((next a).remaining_le _) hfirst

instance : Monad (Parser ε) where
  pure := Parser.pure
  bind := Parser.bind

@[simp] theorem run_pure (a : α) (cursor : Cursor) :
    (pure a : Parser ε α).run cursor = ⟨.ok a, [], cursor⟩ := rfl

@[simp] theorem run_bind (first : Parser ε α) (next : α → Parser ε β)
    (cursor : Cursor) :
    (first >>= next).run cursor = continueWith next (first.run cursor) := rfl

/-- Ends with an error. -/
def fail (e : ε) : Parser ε α where
  run cursor := ⟨.error e, [], cursor⟩
  remaining_le _ := Nat.le_refl _

/-- The next token, left unread. -/
def peek : Parser ε Token where
  run cursor := ⟨.ok cursor.peek, [], cursor⟩
  remaining_le _ := Nat.le_refl _

/-- Reads the next token. -/
def next : Parser ε Token where
  run cursor := ⟨.ok cursor.peek, [], cursor.advance⟩
  remaining_le cursor := cursor.remaining_advance_le

/-- The line of the token read last. -/
def line : Parser ε Nat where
  run cursor := ⟨.ok cursor.line, [], cursor⟩
  remaining_le _ := Nat.le_refl _

/-- Ends with `problem`, found in the token read last. -/
def reject (problem : Problem) : Parser Diagnostic α := do
  fail ⟨problem, ← line⟩

/-- Reads the next token if it is of the given kind. -/
def skip (kind : TokenKind) : Parser ε Bool := do
  if (← peek).kind = kind then
    let _ ← next
    pure true
  else
    pure false

/-- Reads a token that has to be of the given kind. -/
def expect (kind : TokenKind) : Parser Diagnostic Token := do
  let token ← peek
  if token.kind = kind then next
  else fail ⟨.expectedToken kind token.kind, token.line⟩

/-- A parser that cannot fail, where failing is allowed. -/
def always (parser : Parser Empty α) : Parser ε α where
  run cursor :=
    let outcome := parser.run cursor
    ⟨.ok outcome.value, outcome.diagnostics, outcome.rest⟩
  remaining_le := parser.remaining_le

/-- Records an error as a diagnostic and gives nothing in its place. -/
def recover (parser : Parser Diagnostic α) : Parser Empty (Option α) where
  run cursor :=
    let outcome := parser.run cursor
    match outcome.result with
    | .ok a => ⟨.ok (some a), outcome.diagnostics, outcome.rest⟩
    | .error e => ⟨.ok none, outcome.diagnostics ++ [e], outcome.rest⟩
  remaining_le cursor := by
    have hrest := parser.remaining_le cursor
    dsimp only
    split <;> exact hrest

/-- What `manyUntil` does at a position. -/
def runManyUntil (closes : TokenKind → Bool)
    (item : Token → Parser Empty (Option α)) (cursor : Cursor) :
    Outcome Empty (List α) :=
  match _h : cursor.unread with
  | [] => ⟨.ok [], [], cursor.advance⟩
  | token :: _ =>
      if token.kind = .eof ∨ closes token.kind then ⟨.ok [], [], cursor.advance⟩
      else
        let outcome := (item token).run cursor.advance
        ((runManyUntil closes item outcome.rest).map
          (outcome.value.toList ++ ·)).after outcome.diagnostics
termination_by cursor.remaining
decreasing_by
  exact Nat.lt_of_le_of_lt ((item token).remaining_le _)
    (Cursor.remaining_advance_lt _h)

theorem remaining_runManyUntil_le (closes : TokenKind → Bool)
    (item : Token → Parser Empty (Option α)) (cursor : Cursor) :
    (runManyUntil closes item cursor).rest.remaining ≤ cursor.remaining := by
  fun_induction runManyUntil closes item cursor with
  | case1 cursor h => exact cursor.remaining_advance_le
  | case2 cursor token rest h hclose => exact cursor.remaining_advance_le
  | case3 cursor token rest h hopen outcome ih =>
      simp only [Outcome.rest_after, Outcome.rest_map]
      exact Nat.le_trans ih
        (Nat.le_trans ((item token).remaining_le _) cursor.remaining_advance_le)

/-- Items up to a token that closes them or the end of input, which is read as
well.  Each item is given its first token, already read; an item that comes
to nothing is left out. -/
def manyUntil (closes : TokenKind → Bool)
    (item : Token → Parser Empty (Option α)) : Parser Empty (List α) :=
  ⟨runManyUntil closes item, remaining_runManyUntil_le closes item⟩

/-- What `commaItems` does at a position. -/
def runCommaItems (item : Parser ε α) (cursor : Cursor) : Outcome ε (List α) :=
  match _h : cursor.unread with
  | [] => ⟨.ok [], [], cursor⟩
  | token :: _ =>
      if token.kind = .comma then
        let outcome := item.run cursor.advance
        match outcome.result with
        | .error e => ⟨.error e, outcome.diagnostics, outcome.rest⟩
        | .ok a =>
            ((runCommaItems item outcome.rest).map (a :: ·)).after
              outcome.diagnostics
      else ⟨.ok [], [], cursor⟩
termination_by cursor.remaining
decreasing_by
  exact Nat.lt_of_le_of_lt (item.remaining_le _)
    (Cursor.remaining_advance_lt _h)

theorem remaining_runCommaItems_le (item : Parser ε α) (cursor : Cursor) :
    (runCommaItems item cursor).rest.remaining ≤ cursor.remaining := by
  fun_induction runCommaItems item cursor with
  | case1 cursor h => exact Nat.le_refl _
  | case2 cursor token rest h hcomma outcome e herror =>
      exact Nat.le_trans (item.remaining_le _) cursor.remaining_advance_le
  | case3 cursor token rest h hcomma outcome a hok ih =>
      simp only [Outcome.rest_after, Outcome.rest_map]
      exact Nat.le_trans ih
        (Nat.le_trans (item.remaining_le _) cursor.remaining_advance_le)
  | case4 cursor token rest h hcomma => exact Nat.le_refl _

/-- As many items as have a comma in front of them. -/
def commaItems (item : Parser ε α) : Parser ε (List α) :=
  ⟨runCommaItems item, remaining_runCommaItems_le item⟩

/-- Items between commas up to a closing token.  Where neither a comma nor the
closing token follows an item, `wanted` is what is reported missing. -/
def delimited (close wanted : TokenKind) (item : Parser Diagnostic α) :
    Parser Diagnostic (List α) := do
  if ← skip close then
    pure []
  else
    let first ← item
    let others ← commaItems item
    let token ← peek
    if token.kind = close then
      let _ ← next
      pure (first :: others)
    else
      fail ⟨.expectedToken wanted token.kind, token.line⟩

end Parser

end Scriptlet
