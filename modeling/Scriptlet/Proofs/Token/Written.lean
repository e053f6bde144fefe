/-
Tokens written out.  A token that is neither illegal nor an end of input has a
source form: its literal, and for a string the literal in quotes with its
escapes.  Source forms with single spaces between them are read as the tokens
they were written for, and since no source form has a line feed in it, all of
them stand on the first line.
-/
import Scriptlet.Proofs.Token.Joined

namespace Scriptlet

open Piece (isWordChar StopsAt)

namespace TokenKind

/-- The text of a kind whose tokens all have the same text. -/
def fixedText? (kind : TokenKind) : Option String :=
  if kind ∈ operators then some kind.name
  else (keywords.find? fun pair => pair.2 = kind).map Prod.fst

theorem legal_cases : ∀ kind : TokenKind, kind ≠ .illegal → kind ≠ .eof →
    kind = .ident ∨ kind = .int ∨ kind = .string ∨ kind ≠ .string ∧
      ∃ text ∈ kind.fixedText?, (text, kind) ∈ keywords ∨ kind ∈ operators ∧
      text = kind.name := by
  intro kind hillegal heof
  cases kind <;> first | contradiction | decide

end TokenKind

namespace Token

/-- A token with a source form: a name, a number, a string, or the text that
goes with its kind. -/
structure Writable (token : Token) : Prop where
  not_illegal : token.kind ≠ .illegal
  not_eof : token.kind ≠ .eof
  name : token.kind = .ident → IsName token.literal
  number : token.kind = .int →
    token.literal.toList ≠ [] ∧ ∀ c ∈ token.literal.toList, c.isDigit
  fixed : ∀ text ∈ token.kind.fixedText?, token.literal = text

instance (token : Token) : Decidable token.Writable :=
  decidable_of_iff
    (token.kind ≠ .illegal ∧ token.kind ≠ .eof ∧
      (token.kind = .ident → IsName token.literal) ∧
      (token.kind = .int → token.literal.toList ≠ [] ∧
        token.literal.toList.all Char.isDigit) ∧
      ∀ text ∈ token.kind.fixedText?, token.literal = text)
    (by
      simp only [List.all_eq_true]
      exact ⟨fun ⟨hlegal, heof, hname, hnumber, hfixed⟩ =>
        ⟨hlegal, heof, hname, hnumber, hfixed⟩,
        fun h => ⟨h.not_illegal, h.not_eof, h.name, h.number, h.fixed⟩⟩)

/-- The source form of a token. -/
def written (token : Token) : String :=
  if token.kind = .string then Quoted.quote token.literal else token.literal

end Token

section Written

variable {token : Token} {tokens : List Token} {after : List Char}

theorem Quoted.not_mem_encode (contents : List Char) :
    '\n' ∉ Quoted.encode contents := by
  have hescape : ∀ c : Char, '\n' ∉ Quoted.escape c := by
    intro c hc
    rcases Quoted.escape_cases c with ⟨hself, -, -⟩ | ⟨e, hescaped, he⟩
    · rw [hself, List.mem_singleton] at hc
      subst hc
      cases hself
    · rw [hescaped] at hc
      obtain rfl : '\n' = e := by simpa using hc
      subst he
      cases hescaped
  simp [Quoted.encode, hescape]

/-- In front of a space, or at the end, the source form of a token spells the
token. -/
theorem Token.Writable.spelling (h : token.Writable)
    (hafter : ∀ c ∈ after.head?, c = ' ') :
    Spelling after token.kind token.literal token.written.toList := by
  have hstop : ∀ {belongs : Char → Bool}, belongs ' ' = false →
      StopsAt belongs after := by
    intro belongs hspace c hc
    rw [hafter c hc, hspace]
  obtain ⟨kind, literal, line⟩ := token
  rcases kind.legal_cases h.not_illegal h.not_eof with
    rfl | rfl | rfl | ⟨hother, text, htext, hfixed⟩
  · exact .name (h.name rfl) (hstop (by decide))
  · obtain ⟨hne, hdigits⟩ := h.number rfl
    have hspelling := Spelling.number hne hdigits (hstop (by decide))
    rwa [String.ofList_toList] at hspelling
  · have hspelling : Spelling after .string _ _ :=
      .string (Quoted.spells_escape literal.toList)
    rw [String.ofList_toList] at hspelling
    simpa [written, Quoted.quote, Quoted.encode] using hspelling
  · obtain rfl : literal = text := h.fixed text htext
    have hwritten : written ⟨kind, literal, line⟩ = literal := if_neg hother
    rw [hwritten]
    rcases hfixed with hkeyword | ⟨hoperator, rfl⟩
    · exact .keyword hkeyword (hstop (by decide))
    · exact .operator hoperator
        (hstop (TokenKind.goesOn_of_isBlank (by decide) kind))

theorem Token.Writable.lineFeeds_written (h : token.Writable) :
    lineFeeds token.written.toList = 0 := by
  by_cases hstring : token.kind = .string
  · rw [Token.written, if_pos hstring, Quoted.quote, String.toList_ofList]
    exact List.count_eq_zero.2 (Quoted.not_mem_encode _)
  · have hend : ∀ c ∈ ([] : List Char).head?, c = ' ' := by rintro c ⟨⟩
    rcases (h.spelling hend).plain_or_quoted with
      ⟨-, hnone⟩ | ⟨_, _, -, ⟨-, hclosed, -⟩ | ⟨-, hopen, -⟩⟩
    · exact hnone
    · exact absurd hclosed hstring
    · exact absurd hopen h.not_illegal

/-- A token that is written out on the first line is read there. -/
theorem Token.Writable.tokens_eq (h : token.Writable)
    (hafter : ∀ c ∈ after.head?, c = ' ') :
    Piece.tokens 1 (Piece.cut (token.written.toList ++ after)) =
      { token with line := 1 } :: Piece.tokens 1 (Piece.cut after) := by
  obtain ⟨c, cs, hcs, hread⟩ := (h.spelling hafter).read_eq
  rw [hcs, Piece.cut, hread, Piece.tokens, h.lineFeeds_written]

/-- The source forms of tokens with a space in front of each. -/
def spaced (tokens : List Token) : List Char :=
  tokens.flatMap fun token => ' ' :: token.written.toList

theorem head_spaced (tokens : List Token) :
    ∀ c ∈ (spaced tokens).head?, c = ' ' := by
  intro c hc
  cases tokens with
  | nil => cases hc
  | cons token tokens => exact (Option.some.inj hc).symm

theorem tokens_spaced (h : ∀ token ∈ tokens, token.Writable) :
    Piece.tokens 1 (Piece.cut (spaced tokens)) =
      tokens.map fun token => { token with line := 1 } := by
  induction tokens with
  | nil => simp [spaced, Piece.cut, Piece.tokens]
  | cons token tokens ih =>
      have hfirst := h token List.mem_cons_self
      have hothers :=
        ih fun other hother => h other (List.mem_cons_of_mem token hother)
      have hline : 1 + lineFeeds [' '] = 1 := rfl
      change Piece.tokens 1
        (Piece.cut (' ' :: (token.written.toList ++ spaced tokens))) = _
      rw [Piece.tokens_blank (by decide), hline,
        hfirst.tokens_eq (head_spaced tokens), hothers, List.map_cons]

theorem lineFeeds_spaced (h : ∀ token ∈ tokens, token.Writable) :
    lineFeeds (spaced tokens) = 0 := by
  induction tokens with
  | nil => rfl
  | cons token tokens ih =>
      have hfirst := (h token List.mem_cons_self).lineFeeds_written
      have hothers :=
        ih fun other hother => h other (List.mem_cons_of_mem token hother)
      have hspace : lineFeeds [' '] = 0 := rfl
      change lineFeeds ([' '] ++ (token.written.toList ++ spaced tokens)) = 0
      rw [lineFeeds_append, lineFeeds_append, hspace, hfirst, hothers]

/-- Whatever tokens are written out with single spaces between them are read
again, all on the first line, and behind them the end of input on that line. -/
theorem TokenStream.ofSource_written (h : ∀ token ∈ tokens, token.Writable) :
    ofSource (" ".intercalate (tokens.map Token.written)) =
      ⟨tokens.map fun token => { token with line := 1 }, 1⟩ := by
  cases tokens with
  | nil => simp [ofSource, Piece.cut, Piece.tokens, lineFeeds]
  | cons first others =>
      have hfirst := h first List.mem_cons_self
      have hothers : ∀ token ∈ others, token.Writable :=
        fun token htoken => h token (List.mem_cons_of_mem first htoken)
      have htext :
          (" ".intercalate ((first :: others).map Token.written)).toList =
            first.written.toList ++ spaced others := by
        rw [List.map_cons, toList_intercalate_cons, List.flatMap_map]
        rfl
      rw [ofSource, htext, hfirst.tokens_eq (head_spaced others),
        tokens_spaced hothers, lineFeeds_append, hfirst.lineFeeds_written,
        lineFeeds_spaced hothers]
      rfl

/-- A string with a quote, a backslash, a line feed and a NUL in it, behind
other tokens. -/
theorem TokenStream.ofSource_written_string :
    let tokens : List Token :=
      [⟨.letWord, "let", 3⟩, ⟨.ident, "lets", 3⟩, ⟨.assign, "=", 3⟩,
      ⟨.int, "007", 4⟩, ⟨.eq, "==", 4⟩, ⟨.string, "\"n\\\n\x00\\", 5⟩]
    let source := "let lets = 007 == \"\\\"n\\\\\\n\x00\\\\\""
    (∀ token ∈ tokens, token.Writable) ∧
      ofSource source =
        ⟨tokens.map fun token => { token with line := 1 }, 1⟩ := by
  intro tokens source
  have hwritable : ∀ token ∈ tokens, token.Writable := by decide
  have hsource : source = " ".intercalate (tokens.map Token.written) := by
    decide +kernel
  rw [hsource]
  exact ⟨hwritable, ofSource_written hwritable⟩

end Written

end Scriptlet
