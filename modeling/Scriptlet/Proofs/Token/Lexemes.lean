/-
A source text as its tokens and the gaps around them.  A gap is made of blanks
and comments, and behind it a token is spelled out as far as its spelling goes.
Every source can be taken apart in this way, and however that is done, the
tokens are those that are read, each on the line where its spelling starts.
-/
import Mathlib.Logic.Function.Iterate
import Scriptlet.Parser.Basic
import Scriptlet.Proofs.Token.Lexed

namespace Scriptlet

open Piece (isBlank isWordChar StopsAt)

/-- Text that holds no token: blanks, and comments up to the end of their lines.
The gap stands in front of `after`. -/
inductive Gap (after : List Char) : List Char → Prop
  | nil : Gap after []
  | blank {c : Char} {text : List Char} (hc : isBlank c) (h : Gap after text) :
      Gap after (c :: text)
  | comment {body text : List Char} (hbody : ∀ c ∈ body, c ≠ '\n')
      (hend : ∀ c ∈ (text ++ after).head?, c = '\n') (h : Gap after text) :
      Gap after ('/' :: '/' :: (body ++ text))

namespace TokenKind

/-- The kinds with a single spelling that is no word.  It is their name. -/
def operators : List TokenKind :=
  [assign, plus, minus, bang, asterisk, slash, percent, lt, gt, eq, notEq,
    comma, colon, semicolon, lparen, rparen, lbrace, rbrace, lbracket, rbracket]

/-- Whether an operator and a character behind it start something longer:
another operator or a comment. -/
def goesOn : TokenKind → Char → Bool
  | assign, '=' | bang, '=' | slash, '/' => true
  | _, _ => false

end TokenKind

/-- A character that is no blank and starts no word, number or string. -/
def isSymbol (c : Char) : Bool :=
  !isBlank c && !isWordChar c && !c.isDigit && c != '"'

/-- The kind and the literal of the token that is spelled `text` in front of
`after`. -/
inductive Spelling (after : List Char) : TokenKind → String → List Char → Prop
  | keyword {word : String} {kind : TokenKind}
      (hword : (word, kind) ∈ TokenKind.keywords)
      (hend : StopsAt isWordChar after) : Spelling after kind word word.toList
  | name {name : String} (hname : IsName name)
      (hend : StopsAt isWordChar after) : Spelling after .ident name name.toList
  | number {digits : List Char} (hne : digits ≠ [])
      (hdigits : ∀ c ∈ digits, c.isDigit) (hend : StopsAt Char.isDigit after) :
      Spelling after .int (String.ofList digits) digits
  | operator {kind : TokenKind} (hkind : kind ∈ TokenKind.operators)
      (hend : StopsAt kind.goesOn after) :
      Spelling after kind kind.name kind.name.toList
  | string {body contents : List Char} (hbody : Quoted.Spells body contents) :
      Spelling after .string (String.ofList contents) ('"' :: body ++ ['"'])
  /-- A string that goes on to the end, up to a backslash with nothing behind
  it. -/
  | unterminated {body contents : List Char}
      (hbody : Quoted.Spells body contents)
      (hend : after = [] ∨ after = ['\\']) :
      Spelling after .illegal Piece.unterminated ('"' :: body)
  | stray {c : Char} (hc : isSymbol c)
      (hother : ∀ kind ∈ TokenKind.operators, kind.name ≠ String.singleton c) :
      Spelling after .illegal (String.singleton c) [c]

/-- A token with its spelling and the gap in front of it. -/
structure Lexeme where
  gap : List Char
  text : List Char
  token : Token

namespace Lexeme

def source (lexeme : Lexeme) : List Char := lexeme.gap ++ lexeme.text

/-- The lexeme is in place between `before` and `after`: the token is the one
spelled there, and its line is one more than the line feeds in front of its
spelling. -/
structure Fits (before after : List Char) (lexeme : Lexeme) : Prop where
  gap : Gap (lexeme.text ++ after) lexeme.gap
  ne_nil : lexeme.text ≠ []
  spelling : Spelling after lexeme.token.kind lexeme.token.literal lexeme.text
  line : lexeme.token.line = 1 + lineFeeds (before ++ lexeme.gap)

/-- The text of lexemes with a last gap behind them. -/
def join (lexemes : List Lexeme) (last : List Char) : List Char :=
  lexemes.flatMap source ++ last

end Lexeme

open Lexeme (join)

/-- A text behind `before`, taken apart: every lexeme is in place between those
in front of it and those behind it, and only a gap is left at the end. -/
structure Reading (before : List Char) (lexemes : List Lexeme)
    (last : List Char) : Prop where
  ends : Gap [] last
  fits : ∀ front lexeme back, lexemes = front ++ lexeme :: back →
    lexeme.Fits (before ++ front.flatMap Lexeme.source) (join back last)

section Gaps

variable {after text text' : List Char}

theorem gap_of_blank (h : ∀ c ∈ text, isBlank c) : Gap after text := by
  induction text with
  | nil => exact .nil
  | cons c text ih =>
      have hc := h c List.mem_cons_self
      exact .blank hc (ih fun d hd => h d (List.mem_cons_of_mem c hd))

theorem Gap.append (h : Gap (text' ++ after) text) (h' : Gap after text') :
    Gap after (text ++ text') := by
  induction h with
  | nil => exact h'
  | blank hc _ ih => exact .blank hc ih
  | @comment body rest hbody hend _ ih =>
      rw [List.cons_append, List.cons_append, List.append_assoc]
      rw [← List.append_assoc] at hend
      exact .comment hbody hend ih

theorem stopsAt_dropWhile (belongs : Char → Bool) (text : List Char) :
    StopsAt belongs (text.dropWhile belongs) := by
  intro c hc
  have hhead := List.head?_dropWhile_not belongs text
  rw [Option.mem_def.1 hc] at hhead
  simpa using hhead

/-- What is cut off as a gap is one. -/
theorem gap_of_read {c : Char} {cs : List Char}
    (h : Piece.read c cs = (.gap text, after)) : Gap after text := by
  unfold Piece.read at h
  split at h
  · next hc =>
      cases h
      apply gap_of_blank
      intro d hd
      rcases List.mem_cons.1 hd with rfl | hd
      · exact hc
      · exact List.all_eq_true.1 List.all_takeWhile d hd
  split at h
  · cases h
  split at h
  · cases h
  split at h
  · simp only [Piece.ofStringBody] at h
    split at h <;> cases h
  split at h
  · next rest _ _ _ _ =>
      obtain ⟨hgap, hafter⟩ := Prod.mk.inj h
      cases hgap
      rw [← List.append_nil (rest.takeWhile (· != '\n'))]
      apply Gap.comment
      · intro d hd
        simpa using List.all_eq_true.1 List.all_takeWhile d hd
      · intro d hd
        rw [List.nil_append, ← hafter] at hd
        simpa using stopsAt_dropWhile (· != '\n') rest d hd
      · exact .nil
  · cases h
  · cases h
  · cases h

/-- A gap is passed over, and counts for the lines behind it. -/
theorem Gap.tokens_eq (h : Gap after text) (line : Nat) :
    Piece.tokens line (Piece.cut (text ++ after)) =
      Piece.tokens (line + lineFeeds text) (Piece.cut after) := by
  induction h generalizing line with
  | nil => rfl
  | @blank c text hc _ ih =>
      have hfeeds := lineFeeds_append [c] text
      rw [List.singleton_append] at hfeeds
      rw [List.cons_append, Piece.tokens_blank hc, ih, hfeeds, Nat.add_assoc]
  | @comment body text hbody hend _ ih =>
      have hstop : StopsAt (· != '\n') (text ++ after) := by
        intro c hc
        simp [hend c hc]
      have hread : Piece.read '/' ('/' :: (body ++ (text ++ after))) =
          (.gap ('/' :: '/' :: body), text ++ after) := by
        have hbody' : ∀ c ∈ body, (c != '\n') = true := by simpa using hbody
        change (Piece.gap
          ('/' :: '/' :: (body ++ (text ++ after)).takeWhile (· != '\n')),
          (body ++ (text ++ after)).dropWhile (· != '\n')) = _
        rw [Piece.takeWhile_eq hbody' hstop, Piece.dropWhile_eq hbody' hstop]
      have hfeeds := lineFeeds_append ('/' :: '/' :: body) text
      rw [List.cons_append, List.cons_append] at hfeeds
      rw [List.cons_append, List.cons_append, List.append_assoc, Piece.cut,
        hread, Piece.tokens, ih, hfeeds, Nat.add_assoc]

end Gaps

namespace Quoted

variable {text contents after : List Char}

theorem Spells.spanBody_open (h : Spells text contents)
    (hafter : after = [] ∨ after = ['\\']) :
    spanBody (text ++ after) = (text, after) := by
  induction h with
  | nil => rcases hafter with rfl | rfl <;> rfl
  | plain hquote hbackslash _ ih =>
      rw [List.cons_append, spanBody, ih]
      · exact hquote
      · exact fun hlast => absurd hlast hbackslash
      · exact fun d rest hlast => absurd hlast hbackslash
  | escaped c _ ih => rw [List.cons_append, List.cons_append, spanBody, ih]

theorem Spells.contents?_open (h : Spells text contents) :
    contents? text = none := by
  induction h with
  | nil => rfl
  | plain hquote hbackslash _ ih =>
      rw [contents?, ih]
      · rfl
      · exact fun hlast => absurd hlast hquote
      · exact fun d rest hlast => absurd hlast hbackslash
  | escaped c _ ih =>
      rw [contents?, ih]
      rfl

/-- Behind an opening quote the literal is closed, or it goes on to the end. -/
theorem spanBody_cases (text : List Char) :
    (∃ body contents, Spells body contents ∧
      (spanBody text).1 = body ++ ['"']) ∨
      ∃ contents, Spells (spanBody text).1 contents ∧
        ((spanBody text).2 = [] ∨ (spanBody text).2 = ['\\']) := by
  fun_induction spanBody text with
  | case1 => exact Or.inr ⟨[], .nil, Or.inl rfl⟩
  | case2 rest => exact Or.inl ⟨[], [], .nil, rfl⟩
  | case3 => exact Or.inr ⟨[], .nil, Or.inr rfl⟩
  | case4 c rest body after hspan ih =>
      rw [hspan] at ih
      rcases ih with
        ⟨inner, contents, hinner, hbody⟩ | ⟨contents, hbody, hafter⟩
      · exact Or.inl ⟨_, _, .escaped c hinner, by
          rw [List.cons_append, List.cons_append, ← hbody]⟩
      · exact Or.inr ⟨_, .escaped c hbody, hafter⟩
  | case5 c rest hquote hlast hescape body after hspan ih =>
      rw [hspan] at ih
      have hbackslash : c ≠ '\\' := by
        rintro rfl
        cases rest with
        | nil => exact hlast rfl rfl
        | cons d rest => exact hescape d rest rfl rfl
      have hquote : c ≠ '"' := fun hc => hquote hc
      rcases ih with
        ⟨inner, contents, hinner, hbody⟩ | ⟨contents, hbody, hafter⟩
      · exact Or.inl ⟨_, _, .plain hquote hbackslash hinner, by
          rw [List.cons_append, ← hbody]⟩
      · exact Or.inr ⟨_, .plain hquote hbackslash hbody, hafter⟩

end Quoted

section Spellings

variable {after text : List Char} {kind : TokenKind} {literal : String}

theorem TokenKind.keywords_spec : ∀ pair ∈ keywords,
    pair.1.toList ≠ [] ∧ pair.1.toList.all isWordChar ∧
      ofWord pair.1 = pair.2 := by
  decide

/-- The first character of a kind's name. -/
def TokenKind.initial (kind : TokenKind) : Char := kind.name.toList.headD ' '

theorem TokenKind.operators_spec :
    ∀ kind ∈ operators, kind = .eq ∨ kind = .notEq ∨
    kind.name = String.singleton kind.initial ∧ isSymbol kind.initial ∧
      ofSymbol kind.initial = kind := by
  decide

theorem TokenKind.ofSymbol_spec (c : Char) :
    (ofSymbol c ∈ operators ∧ (ofSymbol c).name = String.singleton c) ∨
      ofSymbol c = .illegal ∧ ∀ kind ∈ operators,
        kind.name ≠ String.singleton c := by
  by_cases hc : ofSymbol c = .illegal
  · right
    constructor
    · exact hc
    · intro kind hkind hname
      have hspelled : ∀ kind ∈ operators, kind.name.toList.tail = [] →
          ofSymbol kind.initial ≠ .illegal := by decide
      apply hspelled kind hkind
      · simp [hname]
      · simpa [initial, hname] using hc
  · left
    revert hc
    unfold ofSymbol
    split
    case h_19 => exact fun hc => absurd rfl hc
    all_goals exact fun _ => by decide

theorem TokenKind.goesOn_ofSymbol {c d : Char} (h : (ofSymbol c).goesOn d) :
    c = '/' ∧ d = '/' ∨ c = '=' ∧ d = '=' ∨ c = '!' ∧ d = '=' := by
  have hgoes : ∀ {kind : TokenKind}, kind.goesOn d →
      kind = .slash ∧ d = '/' ∨ kind = .assign ∧ d = '=' ∨
        kind = .bang ∧ d = '=' := by
    intro kind hkind
    unfold goesOn at hkind
    split at hkind
    · exact Or.inr (Or.inl ⟨rfl, rfl⟩)
    · exact Or.inr (Or.inr ⟨rfl, rfl⟩)
    · exact Or.inl ⟨rfl, rfl⟩
    · cases hkind
  have hspelled : ∀ {kind : TokenKind}, ofSymbol c = kind → kind ≠ .illegal →
      c = kind.initial := by
    intro kind hkind hlegal
    rcases ofSymbol_spec c with ⟨_, hname⟩ | ⟨hillegal, _⟩
    · rw [← hkind, initial, hname]
      simp
    · exact absurd (hkind.symm.trans hillegal) hlegal
  rcases hgoes h with ⟨hkind, hd⟩ | ⟨hkind, hd⟩ | ⟨hkind, hd⟩
  · exact Or.inl ⟨hspelled hkind (by decide), hd⟩
  · exact Or.inr (Or.inl ⟨hspelled hkind (by decide), hd⟩)
  · exact Or.inr (Or.inr ⟨hspelled hkind (by decide), hd⟩)

theorem read_symbol {c : Char} (hc : isSymbol c)
    (hend : StopsAt (TokenKind.ofSymbol c).goesOn after) :
    Piece.read c after =
      (.token (TokenKind.ofSymbol c) (String.singleton c) [c], after) := by
  simp only [isSymbol, Bool.and_eq_true, Bool.not_eq_eq_eq_not, Bool.not_true,
    bne_iff_ne] at hc
  obtain ⟨⟨⟨hblank, hword⟩, hdigit⟩, hquote⟩ := hc
  unfold Piece.read
  rw [if_neg (by simp [hblank]), if_neg (by simp [hword]),
    if_neg (by simp [hdigit]), if_neg hquote]
  split
  · exact absurd (hend '/' rfl) (by decide)
  · exact absurd (hend '=' rfl) (by decide)
  · exact absurd (hend '=' rfl) (by decide)
  · rfl

theorem spelling_word {word : String} (hne : word.toList ≠ [])
    (hword : ∀ c ∈ word.toList, isWordChar c)
    (hend : StopsAt isWordChar after) :
    Spelling after (.ofWord word) word word.toList := by
  by_cases hkeyword : word ∈ TokenKind.keywords.map Prod.fst
  · obtain ⟨pair, hpair, rfl⟩ := List.mem_map.1 hkeyword
    obtain ⟨_, _, hkind⟩ := TokenKind.keywords_spec pair hpair
    rw [hkind]
    exact .keyword hpair hend
  · rw [TokenKind.ofWord_of_not_keyword hkeyword]
    exact .name ⟨hne, hword, hkeyword⟩ hend

theorem read_word_toList {word : String} (hne : word.toList ≠ [])
    (hword : ∀ c ∈ word.toList, isWordChar c)
    (hend : StopsAt isWordChar after) :
    ∃ c cs, word.toList ++ after = c :: cs ∧
      Piece.read c cs = (.token (.ofWord word) word word.toList, after) := by
  obtain ⟨c, cs, hcs⟩ := List.exists_cons_of_ne_nil hne
  have hspelled : String.ofList (c :: cs) = word := by
    rw [← hcs, String.ofList_toList]
  rw [hcs] at hword
  have hread := Piece.read_word hword hend
  rw [hspelled] at hread
  rw [hcs]
  exact ⟨c, cs ++ after, rfl, hread⟩

theorem mem_cons_takeWhile {belongs : Char → Bool} {c : Char} {cs : List Char}
    (hc : belongs c) : ∀ d ∈ c :: cs.takeWhile belongs, belongs d := by
  intro d hd
  rcases List.mem_cons.1 hd with rfl | hd
  · exact hc
  · exact List.all_eq_true.1 List.all_takeWhile d hd

theorem spelling_ofStringBody {cs : List Char}
    (h : Piece.ofStringBody (Quoted.spanBody cs).1 = .token kind literal text) :
    Spelling (Quoted.spanBody cs).2 kind literal text := by
  rcases Quoted.spanBody_cases cs with
    ⟨body, contents, hbody, hspan⟩ | ⟨contents, hbody, hend⟩
  · rw [hspan, Piece.ofStringBody, hbody.contents?_closed] at h
    cases h
    exact .string hbody
  · rw [Piece.ofStringBody, hbody.contents?_open] at h
    cases h
    exact .unterminated hbody hend

/-- What is cut off as a token is spelled so. -/
theorem spelling_of_read {c : Char} {cs : List Char}
    (h : Piece.read c cs = (.token kind literal text, after)) :
    Spelling after kind literal text := by
  unfold Piece.read at h
  split at h
  · cases h
  next hblank =>
  split at h
  · next hc =>
      cases h
      have hchars : ∀ d ∈ (String.ofList (c :: cs.takeWhile isWordChar)).toList,
          isWordChar d := by
        rw [String.toList_ofList]
        exact mem_cons_takeWhile hc
      have hspelling :=
        spelling_word (by simp) hchars (stopsAt_dropWhile isWordChar cs)
      rw [String.toList_ofList] at hspelling
      exact hspelling
  next hword =>
  split at h
  · next hc =>
      cases h
      exact .number (List.cons_ne_nil _ _) (mem_cons_takeWhile hc)
        (stopsAt_dropWhile _ cs)
  next hdigit =>
  split at h
  · obtain ⟨htoken, rfl⟩ := Prod.mk.inj h
    exact spelling_ofStringBody htoken
  next hquote =>
  split at h
  · cases h
  · cases h
    have heq : TokenKind.eq ∈ TokenKind.operators := by decide
    exact .operator heq (by simp [StopsAt, TokenKind.goesOn])
  · cases h
    have hnotEq : TokenKind.notEq ∈ TokenKind.operators := by decide
    exact .operator hnotEq (by simp [StopsAt, TokenKind.goesOn])
  · next hslash heq hne =>
      cases h
      rcases TokenKind.ofSymbol_spec c with
        ⟨hoperator, hname⟩ | ⟨hillegal, hother⟩
      · have hend : StopsAt (TokenKind.ofSymbol c).goesOn after := by
          intro d hd
          obtain ⟨rest, hrest⟩ : ∃ rest, after = d :: rest :=
            List.head?_eq_some_iff.1 hd
          rw [Bool.eq_false_iff]
          intro hgoes
          rcases TokenKind.goesOn_ofSymbol hgoes with
            ⟨hc, rfl⟩ | ⟨hc, rfl⟩ | ⟨hc, rfl⟩
          · exact hslash rest hc hrest
          · exact heq rest hc hrest
          · exact hne rest hc hrest
        have hspelling := Spelling.operator hoperator hend
        rw [hname, String.toList_singleton] at hspelling
        exact hspelling
      · rw [hillegal]
        have hc : isSymbol c := by simp_all [isSymbol]
        exact .stray hc hother

/-- A token that is spelled out is cut off as it is. -/
theorem Spelling.read_eq (h : Spelling after kind literal text) :
    ∃ c cs, text ++ after = c :: cs ∧
      Piece.read c cs = (.token kind literal text, after) := by
  induction h with
  | @keyword word kind hword hend =>
      obtain ⟨hne, hchars, hkind⟩ := TokenKind.keywords_spec _ hword
      change TokenKind.ofWord word = kind at hkind
      rw [← hkind]
      exact read_word_toList hne (List.all_eq_true.1 hchars) hend
  | @name name hname hend =>
      rw [← TokenKind.ofWord_of_not_keyword hname.not_keyword]
      exact read_word_toList hname.ne_nil hname.isWordChar hend
  | @number digits hne hdigits hend =>
      obtain ⟨c, cs, rfl⟩ := List.exists_cons_of_ne_nil hne
      exact ⟨c, cs ++ after, rfl, Piece.read_digits hdigits hend⟩
  | @operator kind hkind hend =>
      rcases TokenKind.operators_spec kind hkind with
        rfl | rfl | ⟨hname, hsymbol, hofSymbol⟩
      · exact ⟨'=', '=' :: after, rfl, rfl⟩
      · exact ⟨'!', '=' :: after, rfl, rfl⟩
      · rw [← hofSymbol] at hend
        have hread := read_symbol hsymbol hend
        rw [hofSymbol] at hread
        rw [hname, String.toList_singleton]
        exact ⟨kind.initial, after, rfl, hread⟩
  | @string body contents hbody =>
      exact ⟨'"', body ++ '"' :: after, by simp, Piece.read_quoted hbody after⟩
  | @unterminated body contents hbody hend =>
      refine ⟨'"', body ++ after, rfl, ?_⟩
      simp [Piece.read, isBlank, isWordChar, hbody.spanBody_open hend,
        Piece.ofStringBody, hbody.contents?_open]
  | @stray c hc hother =>
      have hillegal : TokenKind.ofSymbol c = .illegal := by
        rcases TokenKind.ofSymbol_spec c with ⟨hoperator, hname⟩ | ⟨hillegal, _⟩
        · exact absurd hname (hother _ hoperator)
        · exact hillegal
      have hread : StopsAt (TokenKind.ofSymbol c).goesOn after → _ :=
        read_symbol hc
      rw [hillegal] at hread
      exact ⟨c, after, rfl, hread (by simp [StopsAt, TokenKind.goesOn])⟩

/-- What starts with a quote is a string, closed or not, and only a string can
go over the end of a line. -/
theorem Spelling.plain_or_quoted (h : Spelling after kind literal text) :
    text.head? ≠ some '"' ∧ lineFeeds text = 0 ∨
      ∃ body contents, Quoted.Spells body contents ∧
        (text = '"' :: body ++ ['"'] ∧ kind = .string ∧
          literal = String.ofList contents ∨
          text = '"' :: body ∧ kind = .illegal ∧
          literal = Piece.unterminated) := by
  have hplain : '"' ∉ text → '\n' ∉ text → text.head? ≠ some '"' ∧
      lineFeeds text = 0 :=
    fun hquote hfeed =>
      ⟨fun hhead => hquote (List.mem_of_head? hhead),
        List.count_eq_zero.2 hfeed⟩
  cases h with
  | keyword hword _ =>
      have hkeywords : ∀ pair ∈ TokenKind.keywords,
          '"' ∉ pair.1.toList ∧ '\n' ∉ pair.1.toList := by decide
      obtain ⟨hquote, hfeed⟩ := hkeywords _ hword
      exact Or.inl (hplain hquote hfeed)
  | name hname _ =>
      exact Or.inl
        (hplain (fun hc => absurd (hname.isWordChar _ hc) (by decide))
          (fun hc => absurd (hname.isWordChar _ hc) (by decide)))
  | number _ hdigits _ =>
      exact Or.inl (hplain (fun hc => absurd (hdigits _ hc) (by decide))
        (fun hc => absurd (hdigits _ hc) (by decide)))
  | operator hkind _ =>
      have hoperators : ∀ kind ∈ TokenKind.operators,
          '"' ∉ kind.name.toList ∧ '\n' ∉ kind.name.toList := by decide
      obtain ⟨hquote, hfeed⟩ := hoperators _ hkind
      exact Or.inl (hplain hquote hfeed)
  | string hbody => exact Or.inr ⟨_, _, hbody, Or.inl ⟨rfl, rfl, rfl⟩⟩
  | unterminated hbody _ => exact Or.inr ⟨_, _, hbody, Or.inr ⟨rfl, rfl, rfl⟩⟩
  | @stray c hc _ =>
      have hother : ∀ d, isSymbol d = false → d ∉ [c] := by
        intro d hd hmem
        rw [List.mem_singleton.1 hmem, hc] at hd
        cases hd
      exact Or.inl (hplain (hother '"' (by decide)) (hother '\n' (by decide)))

end Spellings

theorem Lexeme.join_cons (lexeme : Lexeme) (lexemes : List Lexeme)
    (last : List Char) :
    join (lexeme :: lexemes) last =
      lexeme.gap ++ (lexeme.text ++ join lexemes last) := by
  simp [join, source]

section Readings

variable {before last text : List Char} {lexeme : Lexeme}
  {lexemes : List Lexeme}

theorem reading_nil (h : Gap [] last) : Reading before [] last where
  ends := h
  fits front lexeme back hsplit := by simp at hsplit

theorem reading_cons_iff : Reading before (lexeme :: lexemes) last ↔
    lexeme.Fits before (join lexemes last) ∧
      Reading (before ++ lexeme.source) lexemes last := by
  constructor
  · intro h
    constructor
    · simpa using h.fits [] lexeme lexemes rfl
    · constructor
      · exact h.ends
      · intro front other back hsplit
        have hfits :=
          h.fits (lexeme :: front) other back (by rw [hsplit, List.cons_append])
        rwa [List.flatMap_cons, ← List.append_assoc] at hfits
  · intro ⟨hfirst, hrest⟩
    constructor
    · exact hrest.ends
    · intro front other back hsplit
      cases front with
      | nil =>
          obtain ⟨rfl, rfl⟩ := List.cons.inj hsplit
          simpa using hfirst
      | cons first front =>
          obtain ⟨rfl, hlexemes⟩ := List.cons.inj hsplit
          have hfits := hrest.fits front other back hlexemes
          rwa [List.flatMap_cons, ← List.append_assoc]

/-- A gap in front of a reading belongs to its first gap. -/
theorem Reading.gap_append {gap : List Char}
    (hgap : Gap (join lexemes last) gap)
    (h : Reading (before ++ gap) lexemes last) :
    ∃ lexemes' last', join lexemes' last' = gap ++ join lexemes last ∧
      Reading before lexemes' last' ∧
      lexemes'.map Lexeme.token = lexemes.map Lexeme.token := by
  cases lexemes with
  | nil =>
      refine ⟨[], gap ++ last, rfl, reading_nil ?_, rfl⟩
      rw [← List.append_nil (join [] last)] at hgap
      exact hgap.append h.ends
  | cons lexeme lexemes =>
      obtain ⟨hfirst, hrest⟩ := reading_cons_iff.1 h
      rw [Lexeme.join_cons] at hgap
      let longer : Lexeme := { lexeme with gap := gap ++ lexeme.gap }
      refine ⟨longer :: lexemes, last, ?_, reading_cons_iff.2 ⟨?_, ?_⟩, rfl⟩
      · rw [Lexeme.join_cons, Lexeme.join_cons, List.append_assoc]
      · constructor
        · exact hgap.append hfirst.gap
        · exact hfirst.ne_nil
        · exact hfirst.spelling
        · rw [hfirst.line, List.append_assoc]
      · have hsource : longer.source = gap ++ lexeme.source :=
          List.append_assoc _ _ _
        rwa [hsource, ← List.append_assoc]

/-- Every text has a reading. -/
theorem exists_reading (before text : List Char) :
    ∃ lexemes last, join lexemes last = text ∧ Reading before lexemes last ∧
      lexemes.map Lexeme.token =
        Piece.tokens (1 + lineFeeds before) (Piece.cut text) := by
  fun_induction Piece.cut text generalizing before with
  | case1 => exact ⟨[], [], rfl, reading_nil .nil, rfl⟩
  | case2 c cs ih =>
      have hsource := Piece.text_read_append c cs
      rcases hread : Piece.read c cs with ⟨piece, rest⟩
      rw [hread] at ih hsource
      obtain ⟨lexemes, last, rfl, hreading, htokens⟩ :=
        ih (before ++ piece.text)
      rw [lineFeeds_append, ← Nat.add_assoc] at htokens
      cases piece with
      | gap gap =>
          obtain ⟨lexemes', last', hjoin, hreading', hmap⟩ :=
            hreading.gap_append (gap_of_read hread)
          exact ⟨lexemes', last', hjoin.trans hsource, hreading',
            hmap.trans htokens⟩
      | token kind literal spelling =>
          let lexeme : Lexeme :=
            ⟨[], spelling, kind, literal, 1 + lineFeeds before⟩
          refine ⟨lexeme :: lexemes, last, ?_,
            reading_cons_iff.2 ⟨?_, hreading⟩, ?_⟩
          · rw [Lexeme.join_cons]
            exact hsource
          · constructor
            · exact .nil
            · have hne := Piece.text_read_ne_nil c cs
              rw [hread] at hne
              exact hne
            · exact spelling_of_read hread
            · rw [List.append_nil]
          · rw [List.map_cons, htokens]
            rfl

/-- Whatever the reading of a text, its tokens are those of the text. -/
theorem Reading.tokens_eq (h : Reading before lexemes last) :
    Piece.tokens (1 + lineFeeds before) (Piece.cut (join lexemes last)) =
      lexemes.map Lexeme.token := by
  induction lexemes generalizing before with
  | nil =>
      have htokens := h.ends.tokens_eq (1 + lineFeeds before)
      rw [List.append_nil] at htokens
      simpa [join, Piece.cut, Piece.tokens] using htokens
  | cons lexeme lexemes ih =>
      obtain ⟨hfirst, hrest⟩ := reading_cons_iff.1 h
      obtain ⟨c, cs, hcs, hread⟩ := hfirst.spelling.read_eq
      have htokens := ih hrest
      rw [Lexeme.source, ← List.append_assoc, lineFeeds_append, ← Nat.add_assoc,
        ← hfirst.line] at htokens
      rw [Lexeme.join_cons, hfirst.gap.tokens_eq, Nat.add_assoc,
        ← lineFeeds_append, ← hfirst.line, hcs, Piece.cut, hread, Piece.tokens,
        htokens, List.map_cons]

end Readings

/-- Reading on from a cursor, call by call: the unread tokens in turn, and then
the end of input every time. -/
theorem Cursor.peek_iterate_advance (cursor : Cursor) (count : Nat) :
    (advance^[count] cursor).peek =
      cursor.unread[count]?.getD ⟨.eof, "", cursor.endLine⟩ := by
  induction count generalizing cursor with
  | zero =>
      rw [Function.iterate_zero, id, peek]
      cases cursor.unread <;> rfl
  | succ count ih =>
      rw [Function.iterate_succ_apply, ih, advance]
      cases cursor.unread <;> rfl

/-- The tokens of a source are those of its reading as lexemes with gaps between
them: there is such a reading, and all of them have the same tokens.  Read one
by one they are followed by the end of input, again and again, on the line
behind the last line feed. -/
theorem TokenStream.ofSource_reading (source : String) :
    (∀ tokens : List Token, tokens = (ofSource source).tokens ↔
        ∃ lexemes last, source.toList = lexemes.flatMap Lexeme.source ++ last ∧
          Reading [] lexemes last ∧ tokens = lexemes.map Lexeme.token) ∧
      (∀ token ∈ (ofSource source).tokens, token.kind ≠ .eof) ∧
      ∀ count : Nat,
        (Cursor.advance^[count] (.ofStream (ofSource source))).peek =
        (ofSource source).tokens[count]?.getD
          ⟨.eof, "", 1 + lineFeeds source.toList⟩ := by
  refine ⟨fun tokens => ⟨?_, ?_⟩, ?_, ?_⟩
  · rintro rfl
    obtain ⟨lexemes, last, hjoin, hreading, htokens⟩ :=
      exists_reading [] source.toList
    exact ⟨lexemes, last, hjoin.symm, hreading, htokens.symm⟩
  · rintro ⟨lexemes, last, hsource, hreading, rfl⟩
    rw [← hreading.tokens_eq, join, ← hsource]
    rfl
  · intro token htoken
    exact (Piece.wellSpelled_tokens source.toList 1 token htoken).2
  · intro count
    exact Cursor.peek_iterate_advance _ count

end Scriptlet
