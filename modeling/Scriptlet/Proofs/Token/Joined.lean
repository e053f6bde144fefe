/-
Two source texts with a line feed between them.  Where the first one ends with a
semicolon, or holds no token at all, nothing of it runs on into the second: the
tokens are those of the first and then those of the second, as many lines
further down as the second starts.
-/
import Scriptlet.Proofs.Token.Lexemes

namespace Scriptlet

open Piece (isBlank isWordChar StopsAt)
open Lexeme (join)

/-- The same token so many lines further down. -/
def Token.raise (lines : Nat) (token : Token) : Token :=
  { token with line := token.line + lines }

/-- The same tokens so many lines further down. -/
def TokenStream.raise (lines : Nat) (stream : TokenStream) : TokenStream :=
  ⟨stream.tokens.map (Token.raise lines), stream.endLine + lines⟩

section Heads

variable {after after' text : List Char} {kind : TokenKind} {literal : String}

theorem isWordChar_of_isBlank {c : Char} (h : isBlank c) :
    isWordChar c = false := by
  rw [Bool.eq_false_iff]
  intro hword
  rw [Piece.isBlank_of_isWordChar hword] at h
  cases h

theorem isDigit_of_isBlank {c : Char} (h : isBlank c) : c.isDigit = false := by
  rw [Bool.eq_false_iff]
  intro hdigit
  rw [Piece.isBlank_of_isDigit hdigit] at h
  cases h

theorem TokenKind.goesOn_of_isBlank {c : Char} (h : isBlank c)
    (kind : TokenKind) : kind.goesOn c = false := by
  unfold goesOn
  split
  · cases h
  · cases h
  · cases h
  · rfl

theorem Piece.StopsAt.of_head {belongs : Char → Bool}
    (h : StopsAt belongs after)
    (hblank : ∀ {c : Char}, isBlank c → belongs c = false)
    (hhead : ∀ c ∈ after'.head?, c ∈ after.head? ∨ isBlank c) :
    StopsAt belongs after' := by
  intro c hc
  rcases hhead c hc with hc | hc
  · exact h c hc
  · exact hblank hc

/-- A spelling ends where it did when the text behind it starts as before or
with a blank.  Only a string that is not closed has to be left out: it takes in
what follows. -/
theorem Spelling.of_head (h : Spelling after kind literal text)
    (hclosed : kind = .illegal → after ≠ [] ∧ after ≠ ['\\'])
    (hhead : ∀ c ∈ after'.head?, c ∈ after.head? ∨ isBlank c) :
    Spelling after' kind literal text := by
  cases h with
  | keyword hword hend =>
      exact .keyword hword (hend.of_head isWordChar_of_isBlank hhead)
  | name hname hend =>
      exact .name hname (hend.of_head isWordChar_of_isBlank hhead)
  | number hne hdigits hend =>
      exact .number hne hdigits (hend.of_head isDigit_of_isBlank hhead)
  | operator hkind hend =>
      exact .operator hkind
        (hend.of_head (fun hc => TokenKind.goesOn_of_isBlank hc _) hhead)
  | string hbody => exact .string hbody
  | unterminated hbody hend =>
      obtain ⟨hne, hbackslash⟩ := hclosed rfl
      exact absurd hend (not_or.2 ⟨hne, hbackslash⟩)
  | stray hc hother => exact .stray hc hother

/-- A gap stays one when the text behind it starts as before or with a line
feed. -/
theorem Gap.of_head (h : Gap after text)
    (hhead : ∀ c ∈ after'.head?, c ∈ after.head? ∨ c = '\n') :
    Gap after' text := by
  induction h with
  | nil => exact .nil
  | blank hc _ ih => exact .blank hc ih
  | @comment body text hbody hend _ ih =>
      refine .comment hbody ?_ ih
      intro c hc
      cases text with
      | nil =>
          rcases hhead c hc with hc | hc
          · exact hend c hc
          · exact hc
      | cons d text => exact hend c hc

theorem head_append_lineFeed (text more : List Char) :
    ∀ c ∈ (text ++ '\n' :: more).head?, c ∈ text.head? ∨ c = '\n' := by
  intro c hc
  cases text with
  | nil => exact Or.inr (Option.some.inj hc).symm
  | cons d text => exact Or.inl hc

end Heads

section Joining

variable {before after last : List Char} {lexeme : Lexeme}
  {lexemes front back : List Lexeme}

theorem Reading.join_ne_nil (h : Reading before (lexeme :: lexemes) last) :
    join (lexeme :: lexemes) last ≠ [] := by
  obtain ⟨hfirst, _⟩ := reading_cons_iff.1 h
  simp [Lexeme.join_cons, hfirst.ne_nil]

/-- A backslash starts no token but an illegal one. -/
theorem Reading.join_ne_backslash (h : Reading before (front ++ back) last)
    (hlegal : ∀ lexeme ∈ front.getLast?, lexeme.token.kind ≠ .illegal)
    (hne : front ≠ []) : join (front ++ back) last ≠ ['\\'] := by
  intro hjoin
  obtain ⟨first, front, rfl⟩ := List.exists_cons_of_ne_nil hne
  obtain ⟨hfirst, hrest⟩ := reading_cons_iff.1 h
  rw [List.cons_append, Lexeme.join_cons] at hjoin
  rcases List.append_eq_singleton_iff.1 hjoin with ⟨_, hspelled⟩ | ⟨_, hnothing⟩
  · obtain ⟨c, cs, hcs, hread⟩ := hfirst.spelling.read_eq
    obtain ⟨rfl, rfl⟩ := List.cons.inj (hspelled.symm.trans hcs)
    have hillegal : TokenKind.illegal = first.token.kind :=
      (Piece.token.inj (Prod.mk.inj hread).1).1
    have hlast : front = [] := by
      cases front with
      | nil => rfl
      | cons second front =>
          exact absurd (Prod.mk.inj hread).2.symm hrest.join_ne_nil
    subst hlast
    exact hlegal first rfl hillegal.symm
  · exact hfirst.ne_nil (List.append_eq_nil_iff.1 hnothing).1

/-- Lexemes stay as they are when the text behind them is replaced by one that
starts in the same way or with a blank, as long as the last one is legal. -/
theorem Reading.tokens_replace (h : Reading before (front ++ back) last)
    (hlegal : ∀ lexeme ∈ front.getLast?, lexeme.token.kind ≠ .illegal)
    (hhead : ∀ c ∈ after.head?, c ∈ (join back last).head? ∨ isBlank c) :
    Piece.tokens (1 + lineFeeds before)
      (Piece.cut (front.flatMap Lexeme.source ++ after)) =
      front.map Lexeme.token ++
        Piece.tokens (1 + lineFeeds (before ++ front.flatMap Lexeme.source))
        (Piece.cut after) := by
  induction front generalizing before with
  | nil => simp
  | cons lexeme front ih =>
      obtain ⟨hfirst, hrest⟩ := reading_cons_iff.1 h
      have hlegal' : ∀ other ∈ front.getLast?, other.token.kind ≠ .illegal := by
        intro other hother
        apply hlegal other
        cases front with
        | nil => cases hother
        | cons second front => exact hother
      have hclosed : lexeme.token.kind = .illegal →
          join (front ++ back) last ≠ [] ∧
          join (front ++ back) last ≠ ['\\'] := by
        intro hillegal
        cases front with
        | nil => exact absurd hillegal (hlegal lexeme rfl)
        | cons second front =>
            exact ⟨hrest.join_ne_nil,
              hrest.join_ne_backslash hlegal' (List.cons_ne_nil _ _)⟩
      have hbehind : ∀ c ∈ (front.flatMap Lexeme.source ++ after).head?,
          c ∈ (join (front ++ back) last).head? ∨ isBlank c := by
        cases front with
        | nil => exact hhead
        | cons second front =>
            have hsecond : second.source ≠ [] := by
              simp [Lexeme.source, (reading_cons_iff.1 hrest).1.ne_nil]
            obtain ⟨d, ds, hds⟩ := List.exists_cons_of_ne_nil hsecond
            intro c hc
            left
            simpa [join, hds] using hc
      have hspelling := hfirst.spelling.of_head hclosed hbehind
      have hgap : Gap (lexeme.text ++ (front.flatMap Lexeme.source ++ after))
          lexeme.gap := by
        refine hfirst.gap.of_head fun c hc => Or.inl ?_
        obtain ⟨d, ds, hds⟩ := List.exists_cons_of_ne_nil hfirst.ne_nil
        rw [hds] at hc ⊢
        exact hc
      obtain ⟨c, cs, hcs, hread⟩ := hspelling.read_eq
      have htokens := ih hrest hlegal'
      have hline : 1 + lineFeeds (before ++ lexeme.source) =
          lexeme.token.line + lineFeeds lexeme.text := by
        rw [Lexeme.source, ← List.append_assoc, lineFeeds_append,
          ← Nat.add_assoc, ← hfirst.line]
      rw [hline, List.append_assoc] at htokens
      rw [List.flatMap_cons, List.append_assoc, Lexeme.source,
        List.append_assoc, hgap.tokens_eq, Nat.add_assoc, ← lineFeeds_append,
        ← hfirst.line, hcs, Piece.cut, hread, Piece.tokens, htokens,
        List.map_cons, List.cons_append, Lexeme.source]

/-- A reading that ends with a legal token stays as it is in front of a line
feed. -/
theorem Reading.tokens_append_lineFeed (h : Reading before lexemes last)
    (hlegal : ∀ lexeme ∈ lexemes.getLast?, lexeme.token.kind ≠ .illegal)
    (more : List Char) :
    Piece.tokens (1 + lineFeeds before)
      (Piece.cut (join lexemes last ++ '\n' :: more)) =
      lexemes.map Lexeme.token ++
        Piece.tokens (1 + lineFeeds (before ++ join lexemes last))
        (Piece.cut ('\n' :: more)) := by
  have hgap : Gap ('\n' :: more) last :=
    h.ends.of_head (head_append_lineFeed [] more)
  have hhead : ∀ c ∈ (last ++ '\n' :: more).head?, c ∈ last.head? ∨
      isBlank c := by
    intro c hc
    rcases head_append_lineFeed last more c hc with hc | rfl
    · exact Or.inl hc
    · exact Or.inr rfl
  rw [← List.append_nil lexemes] at h
  rw [join, List.append_assoc, h.tokens_replace hlegal hhead, hgap.tokens_eq,
    Nat.add_assoc, ← lineFeeds_append, List.append_assoc]

end Joining

section Raising

theorem Piece.tokens_add (line lines : Nat) (pieces : List Piece) :
    tokens (line + lines) pieces =
      (tokens line pieces).map (Token.raise lines) := by
  induction pieces generalizing line with
  | nil => rfl
  | cons piece pieces ih =>
      cases piece with
      | gap text => rw [tokens, tokens, Nat.add_right_comm, ih]
      | token kind literal text =>
          rw [tokens, tokens, Nat.add_right_comm, ih, List.map_cons]
          rfl

variable (front back : String)

/-- The number of lines from the start of a text to the start of one that
follows it behind a line feed. -/
def linesBefore (front : String) : Nat := lineFeeds front.toList + 1

theorem TokenStream.ofSource_append
    (hend : ∀ token ∈ (ofSource front).tokens.getLast?,
      token.kind = .semicolon) :
    ofSource (front ++ "\n" ++ back) =
      ⟨(ofSource front).tokens ++
        ((ofSource back).raise (linesBefore front)).tokens,
        ((ofSource back).raise (linesBefore front)).endLine⟩ := by
  have htext : (front ++ "\n" ++ back).toList =
      front.toList ++ '\n' :: back.toList := by
    simp
  obtain ⟨lexemes, last, hjoin, hreading, htokens⟩ :=
    exists_reading [] front.toList
  change lexemes.map Lexeme.token = (ofSource front).tokens at htokens
  have hlegal : ∀ lexeme ∈ lexemes.getLast?, lexeme.token.kind ≠ .illegal := by
    intro lexeme hlexeme
    have hsemicolon : lexeme.token.kind = .semicolon := by
      apply hend lexeme.token
      rw [← htokens, List.getLast?_map, Option.mem_def.1 hlexeme]
      rfl
    simp [hsemicolon]
  have hfront := hreading.tokens_append_lineFeed hlegal back.toList
  rw [hjoin, htokens, List.nil_append] at hfront
  have hstart : 1 + lineFeeds front.toList + lineFeeds ['\n'] =
      1 + linesBefore front := rfl
  have hfeeds : lineFeeds ('\n' :: back.toList) = lineFeeds back.toList + 1 :=
    List.count_cons_self
  have hend' : 1 + lineFeeds (front.toList ++ '\n' :: back.toList) =
      1 + lineFeeds back.toList + linesBefore front := by
    rw [lineFeeds_append, hfeeds, linesBefore]
    omega
  rw [Piece.tokens_blank rfl, hstart,
    Piece.tokens_add 1 (linesBefore front)] at hfront
  rw [ofSource, htext, hend', TokenStream.mk.injEq]
  exact ⟨hfront, rfl⟩

end Raising

end Scriptlet
