/-
Layout.  Blanks and closed comments may be put in front of a source text and
behind every token that could be read.  The tokens stay the same, those behind
the place come so many lines further down, and the parser, which asks for the
line of a token only to report it, reads the same program and finds the same
problems.
-/
import Scriptlet.Proofs.Parser.Parallel
import Scriptlet.Proofs.Token.Joined

namespace Scriptlet

open Piece (isBlank)
open Lexeme (join)

/-- Blanks, and comments with the line feeds that close them. -/
inductive Spacing : List Char → Prop
  | nil : Spacing []
  | blank {c : Char} {text : List Char} (hc : isBlank c) (h : Spacing text) :
      Spacing (c :: text)
  | comment {body text : List Char} (hbody : ∀ c ∈ body, c ≠ '\n')
      (h : Spacing text) : Spacing ('/' :: '/' :: (body ++ '\n' :: text))

/-- Spacing that starts with a blank, so that nothing in front of it can go on
in it. -/
structure Layout (text : List Char) : Prop where
  starts : ∃ c ∈ text.head?, isBlank c
  spacing : Spacing text

/-- Spacing is closed, so it is a gap in front of any text. -/
theorem Spacing.gap {text : List Char} (h : Spacing text) (after : List Char) :
    Gap after text := by
  induction h with
  | nil => exact .nil
  | blank hc _ ih => exact .blank hc ih
  | comment hbody _ ih =>
      refine .comment hbody ?_ (.blank rfl ih)
      intro c hc
      exact (Option.some.inj hc).symm

section Tokens

variable {source : String} {front back : List Lexeme}
  {before last layout : List Char}

/-- What is left of a reading behind its first lexemes. -/
theorem Reading.drop (h : Reading before (front ++ back) last) :
    Reading (before ++ front.flatMap Lexeme.source) back last where
  ends := h.ends
  fits first lexeme others hsplit := by
    have hfits :=
      h.fits (front ++ first) lexeme others (by rw [hsplit, List.append_assoc])
    rwa [List.flatMap_append, ← List.append_assoc] at hfits

/-- With layout behind the first lexemes, the tokens of the others come further
down. -/
theorem TokenStream.ofSource_insert (hreading : Reading [] (front ++ back) last)
    (hlegal : ∀ lexeme ∈ front.getLast?, lexeme.token.kind ≠ .illegal)
    (hlayout : Layout layout) :
    ofSource
      (String.ofList
        (front.flatMap Lexeme.source ++ layout ++ join back last)) =
      ⟨front.map Lexeme.token ++ (back.map Lexeme.token).map
        (Token.raise (lineFeeds layout)),
        1 + lineFeeds (join (front ++ back) last) + lineFeeds layout⟩ := by
  have hhead : ∀ c ∈ (layout ++ join back last).head?,
      c ∈ (join back last).head? ∨ isBlank c := by
    obtain ⟨blank, hblank, hisBlank⟩ := hlayout.starts
    obtain ⟨rest, rfl⟩ := List.head?_eq_some_iff.1 hblank
    intro c hc
    obtain rfl : blank = c := Option.some.inj hc
    exact Or.inr hisBlank
  have hfront := hreading.tokens_replace hlegal hhead
  have hback := hreading.drop.tokens_eq
  rw [(hlayout.spacing.gap _).tokens_eq, Piece.tokens_add _ (lineFeeds layout),
    hback] at hfront
  have hend :
      lineFeeds (front.flatMap Lexeme.source ++ (layout ++ join back last)) =
        lineFeeds (join (front ++ back) last) + lineFeeds layout := by
    rw [join, join, List.flatMap_append]
    simp only [lineFeeds_append]
    omega
  rw [ofSource, String.toList_ofList, List.append_assoc, hend, ← Nat.add_assoc,
    TokenStream.mk.injEq]
  exact ⟨hfront, rfl⟩

end Tokens

/-- What a token says, wherever it stands. -/
def Token.word (token : Token) : TokenKind × String :=
  (token.kind, token.literal)

theorem Token.map_word_raise (lines : Nat) (tokens : List Token) :
    (tokens.map (Token.raise lines)).map Token.word =
      tokens.map Token.word := by
  rw [List.map_map]
  rfl

theorem Cursor.word_peek (cursor : Cursor) :
    cursor.peek.word = (cursor.unread.map Token.word).headD (.eof, "") := by
  rw [peek]
  cases cursor.unread <;> rfl

namespace Pairing

/-- Streams with the same words. -/
def sameWords : Pairing where
  cursors cursor cursor' :=
    cursor.unread.map Token.word = cursor'.unread.map Token.word
  lines _ _ := True
  lost _ := False

theorem sameWords_lawful : sameWords.Lawful where
  peek {cursor cursor'} h := by
    have hunread : cursor.unread.map Token.word =
        cursor'.unread.map Token.word := h
    have hword : cursor.peek.word = cursor'.peek.word := by
      rw [Cursor.word_peek, Cursor.word_peek, hunread]
    exact ⟨congrArg Prod.fst hword, congrArg Prod.snd hword, trivial⟩
  line _ := trivial
  advance {cursor cursor'} h := by
    right
    have htail := congrArg List.tail h
    rwa [← List.map_tail, ← List.map_tail] at htail
  lost h _ := h

theorem problems_eq {R : Pairing} {diagnostics diagnostics' : List Diagnostic}
    (h : List.Forall₂ R.Diagnostics diagnostics diagnostics') :
    diagnostics.map Diagnostic.problem =
      diagnostics'.map Diagnostic.problem := by
  induction h with
  | nil => rfl
  | cons hfirst _ ih => rw [List.map_cons, List.map_cons, hfirst.problem, ih]

end Pairing

namespace Parsed

/-- Where tokens stand has no part in what is read. -/
theorem ofStream_of_words {stream stream' : TokenStream}
    (h : stream.tokens.map Token.word = stream'.tokens.map Token.word) :
    (ofStream stream).program = (ofStream stream').program ∧
      (ofStream stream).diagnostics.map Diagnostic.problem =
        (ofStream stream').diagnostics.map Diagnostic.problem := by
  obtain ⟨hprogram, hdiagnostics⟩ :=
    Pairing.sameWords_lawful.ofStream (fun _ hlost => hlost) h
  exact ⟨hprogram, Pairing.problems_eq hdiagnostics⟩

/-- Layout in front of a source text, or right behind a token that could be
read, changes nothing but lines.  Every source text can be taken apart into its
tokens and the gaps around them.  The tokens in front of the layout stay where
they are, and those behind it come down by its line feeds, the end of input with
them; the program is the same, and so are the problems, in the same order. -/
theorem ofSource_spread (source : String) :
    (∃ lexemes last, source.toList = join lexemes last ∧
      Reading [] lexemes last) ∧
      ∀ (front back : List Lexeme) (last layout : List Char),
        source.toList = join (front ++ back) last →
        Reading [] (front ++ back) last →
        (∀ lexeme ∈ front.getLast?, lexeme.token.kind ≠ .illegal) →
          Layout layout →
        let spread :=
          String.ofList
            (front.flatMap Lexeme.source ++ layout ++ join back last)
        let lines := lineFeeds layout
        (TokenStream.ofSource source).tokens =
          front.map Lexeme.token ++ back.map Lexeme.token ∧
          (TokenStream.ofSource spread).tokens =
            front.map Lexeme.token ++ (back.map Lexeme.token).map
              (Token.raise lines) ∧
          (TokenStream.ofSource spread).endLine =
            (TokenStream.ofSource source).endLine + lines ∧
          (ofSource spread).program = (ofSource source).program ∧
          (ofSource spread).diagnostics.map Diagnostic.problem =
            (ofSource source).diagnostics.map Diagnostic.problem := by
  constructor
  · obtain ⟨lexemes, last, hjoin, hreading, -⟩ :=
      exists_reading [] source.toList
    exact ⟨lexemes, last, hjoin.symm, hreading⟩
  · intro front back last layout hsource hreading hlegal hlayout spread lines
    have htokens : (TokenStream.ofSource source).tokens =
        front.map Lexeme.token ++ back.map Lexeme.token := by
      have hall := hreading.tokens_eq
      rw [← hsource, List.map_append] at hall
      exact hall
    have hspread := TokenStream.ofSource_insert hreading hlegal hlayout
    have htokens' := congrArg TokenStream.tokens hspread
    have hwords : (TokenStream.ofSource spread).tokens.map Token.word =
        (TokenStream.ofSource source).tokens.map Token.word := by
      rw [htokens, htokens', List.map_append, List.map_append,
        Token.map_word_raise]
    have hend := congrArg TokenStream.endLine hspread
    rw [← hsource] at hend
    exact ⟨htokens, htokens', hend, ofStream_of_words hwords⟩

/-- A line feed and a comment behind the sign of an assignment. -/
theorem ofSource_spread_sign :
    let sign : List Lexeme :=
      [⟨[], ['a'], ⟨.ident, "a", 1⟩⟩, ⟨[], ['='], ⟨.assign, "=", 1⟩⟩]
    let name : List Lexeme := [⟨[], ['b'], ⟨.ident, "b", 1⟩⟩]
    Reading [] (sign ++ name) [] ∧ Layout "\n//=\n".toList ∧
      (TokenStream.ofSource "a=\n//=\nb").tokens =
        [⟨.ident, "a", 1⟩, ⟨.assign, "=", 1⟩, ⟨.ident, "b", 3⟩] ∧
      (ofSource "a=\n//=\nb").program = (ofSource "a=b").program ∧
      (ofSource "a=\n//=\nb").diagnostics.map Diagnostic.problem =
        (ofSource "a=b").diagnostics.map Diagnostic.problem := by
  intro sign name
  have hreading : Reading [] (sign ++ name) [] := by
    refine reading_cons_iff.2 ⟨⟨.nil, nofun, ?_, rfl⟩,
      reading_cons_iff.2 ⟨⟨.nil, nofun, ?_, rfl⟩,
        reading_cons_iff.2 ⟨⟨.nil, nofun, ?_, rfl⟩, reading_nil .nil⟩⟩⟩
    · exact .name (by decide) (by rintro c ⟨⟩; rfl)
    · exact .operator (by decide) (by rintro c ⟨⟩; rfl)
    · exact .name (by decide) nofun
  have hlayout : Layout "\n//=\n".toList :=
    ⟨⟨'\n', rfl, rfl⟩, .blank rfl (@Spacing.comment ['='] [] (by simp) .nil)⟩
  have hsource : "a=b".toList = join (sign ++ name) [] := rfl
  have hlegal : ∀ lexeme ∈ sign.getLast?, lexeme.token.kind ≠ .illegal := by
    rintro lexeme ⟨⟩
    decide
  obtain ⟨-, htokens, -, hparsed⟩ :=
    (ofSource_spread "a=b").2 sign name [] _ hsource hreading hlegal hlayout
  exact ⟨hreading, hlayout, htokens, hparsed⟩

end Parsed

end Scriptlet
