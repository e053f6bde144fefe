/-
Tokens of a text, the lines they stand on left open.  The spelling of a token is
read back as the token, provided that nothing behind it could belong to it; and
whatever is read, its tokens are well spelled.
-/
import Scriptlet.Integer
import Scriptlet.Token.Piece

namespace Scriptlet

/-- A text that can name something: letters and underscores, but no keyword. -/
structure IsName (name : String) : Prop where
  ne_nil : name.toList ≠ []
  isWordChar : ∀ c ∈ name.toList, Piece.isWordChar c
  not_keyword : name ∉ TokenKind.keywords.map Prod.fst

instance (name : String) : Decidable (IsName name) :=
  decidable_of_iff
    (name.toList ≠ [] ∧ name.toList.all Piece.isWordChar ∧
      name ∉ TokenKind.keywords.map Prod.fst)
    ⟨fun ⟨hne, hword, hkeyword⟩ => ⟨hne, List.all_eq_true.1 hword, hkeyword⟩,
      fun h => ⟨h.ne_nil, List.all_eq_true.2 h.isWordChar, h.not_keyword⟩⟩

namespace TokenKind

theorem lookup_keywords_eq_none {word : String}
    (h : word ∉ keywords.map Prod.fst) : keywords.lookup word = none := by
  rw [List.lookup_eq_none_iff]
  intro pair hpair
  have hne : word ≠ pair.1 := by
    rintro rfl
    exact h (List.mem_map_of_mem hpair)
  simpa using hne

theorem ofWord_of_not_keyword {word : String}
    (h : word ∉ keywords.map Prod.fst) : ofWord word = .ident := by
  rw [ofWord, lookup_keywords_eq_none h, Option.getD_none]

/-- A word is a name or it has the kind of a keyword. -/
theorem ofWord_cases (word : String) :
    word ∉ keywords.map Prod.fst ∨ ofWord word ∈ keywords.map Prod.snd := by
  by_cases h : word ∈ keywords.map Prod.fst
  · right
    obtain ⟨pair, hpair, rfl⟩ := List.mem_map.1 h
    revert pair
    decide
  · exact Or.inl h

theorem ofSymbol_cases (c : Char) :
    ofSymbol c ≠ .ident ∧ ofSymbol c ≠ .int ∧ ofSymbol c ≠ .eof := by
  unfold ofSymbol
  split <;> decide

end TokenKind

/-- A token whose text is what its kind asks for. -/
structure Token.WellSpelled (token : Token) : Prop where
  isName : token.kind = .ident → IsName token.literal
  isDigit : token.kind = .int → ∀ c ∈ token.literal.toList, c.isDigit

/-- A kind that nothing is asked of. -/
theorem Token.wellSpelled_of_kind {token : Token} (hident : token.kind ≠ .ident)
    (hint : token.kind ≠ .int) : token.WellSpelled :=
  ⟨fun h => absurd h hident, fun h => absurd h hint⟩

namespace Piece

theorem wellSpelled_word {word : List Char} {line : Nat} (hne : word ≠ [])
    (hword : ∀ c ∈ word, isWordChar c) :
    Token.WellSpelled ⟨.ofWord (String.ofList word), String.ofList word, line⟩ ∧
      TokenKind.ofWord (String.ofList word) ≠ .eof := by
  rcases TokenKind.ofWord_cases (String.ofList word) with hname | hkeyword
  · have hkind := TokenKind.ofWord_of_not_keyword hname
    refine ⟨⟨fun _ => ⟨?_, ?_, hname⟩, ?_⟩, ?_⟩
    · simpa using hne
    · simpa using hword
    · simp [hkind]
    · simp [hkind]
  · revert hkeyword
    generalize TokenKind.ofWord (String.ofList word) = kind
    intro hkeyword
    refine ⟨Token.wellSpelled_of_kind ?_ ?_, ?_⟩
    all_goals
      rintro rfl
      revert hkeyword
      decide

theorem wellSpelled_read (c : Char) (cs : List Char) {kind : TokenKind}
    {literal : String} {text : List Char} (line : Nat)
    (h : (read c cs).1 = token kind literal text) :
    Token.WellSpelled ⟨kind, literal, line⟩ ∧ kind ≠ .eof := by
  unfold read at h
  split at h
  · cases h
  split at h
  · next hword =>
      cases h
      apply wellSpelled_word (List.cons_ne_nil _ _)
      intro d hd
      rcases List.mem_cons.1 hd with rfl | hd
      · exact hword
      · exact List.all_eq_true.1 List.all_takeWhile d hd
  split at h
  · next hdigit =>
      cases h
      refine ⟨⟨nofun, fun _ d hd => ?_⟩, nofun⟩
      rw [String.toList_ofList] at hd
      rcases List.mem_cons.1 hd with rfl | hd
      · exact hdigit
      · exact List.all_eq_true.1 List.all_takeWhile d hd
  split at h
  · simp only [ofStringBody] at h
    split at h <;> cases h <;> exact ⟨⟨nofun, nofun⟩, nofun⟩
  split at h
  · cases h
  · cases h
    exact ⟨⟨nofun, nofun⟩, nofun⟩
  · cases h
    exact ⟨⟨nofun, nofun⟩, nofun⟩
  · cases h
    obtain ⟨hident, hint, heof⟩ := TokenKind.ofSymbol_cases c
    exact ⟨Token.wellSpelled_of_kind hident hint, heof⟩

/-- The tokens of a text are well spelled, and no end of input is among them. -/
theorem wellSpelled_tokens (text : List Char) (line : Nat) :
    ∀ token ∈ tokens line (cut text), token.WellSpelled ∧
      token.kind ≠ .eof := by
  fun_induction cut text generalizing line with
  | case1 => simp [tokens]
  | case2 c cs ih =>
      cases hread : (read c cs).1 with
      | gap gapText => exact ih (line + lineFeeds gapText)
      | token kind literal spelling =>
          intro token htoken
          rcases List.mem_cons.1 htoken with rfl | hlater
          · exact wellSpelled_read c cs line hread
          · exact ih (line + lineFeeds spelling) token hlater

/-- The text does not go on with a character that `belongs` to what is in front
of it. -/
def StopsAt (belongs : Char → Bool) (text : List Char) : Prop :=
  ∀ c ∈ text.head?, belongs c = false

theorem takeWhile_eq {belongs : Char → Bool} {front text : List Char}
    (hfront : ∀ c ∈ front, belongs c) (hstop : StopsAt belongs text) :
    (front ++ text).takeWhile belongs = front := by
  rw [List.takeWhile_append_of_pos hfront]
  cases text with
  | nil => simp
  | cons c cs => simp [hstop c rfl]

theorem dropWhile_eq {belongs : Char → Bool} {front text : List Char}
    (hfront : ∀ c ∈ front, belongs c) (hstop : StopsAt belongs text) :
    (front ++ text).dropWhile belongs = text := by
  rw [List.dropWhile_append_of_pos hfront]
  cases text with
  | nil => rfl
  | cons c cs => simp [hstop c rfl]

theorem isBlank_of_isWordChar {c : Char} (h : isWordChar c) :
    isBlank c = false := by
  simp only [isBlank, Bool.or_eq_false_iff, beq_eq_false_iff_ne]
  refine ⟨⟨⟨⟨?_, ?_⟩, ?_⟩, ?_⟩, ?_⟩ <;> (rintro rfl; revert h; decide)

theorem isBlank_of_isDigit {c : Char} (h : c.isDigit) : isBlank c = false := by
  simp only [isBlank, Bool.or_eq_false_iff, beq_eq_false_iff_ne]
  refine ⟨⟨⟨⟨?_, ?_⟩, ?_⟩, ?_⟩, ?_⟩ <;> (rintro rfl; revert h; decide)

theorem isWordChar_of_isDigit {c : Char} (h : c.isDigit) :
    isWordChar c = false := by
  obtain ⟨_, hnine⟩ := Char.isDigit_iff_toNat.1 h
  rw [Bool.eq_false_iff]
  intro hword
  have hcases : (c.isUpper || c.isLower) = true ∨ (c == '_') = true :=
    Bool.or_eq_true_iff.1 hword
  have hletter : 'A'.toNat ≤ c.toNat := by
    rcases hcases with hletter | hunderscore
    · rcases Bool.or_eq_true_iff.1 hletter with hupper | hlower
      · exact (of_decide_eq_true hupper).1
      · have hbounds :
            (decide ('a'.val ≤ c.val) && decide (c.val ≤ 'z'.val)) = true :=
          hlower
        have ha : 'a'.toNat ≤ c.toNat :=
          of_decide_eq_true (Bool.and_eq_true_iff.1 hbounds).1
        exact Nat.le_trans (by decide) ha
    · rw [eq_of_beq hunderscore]
      decide
  exact absurd (Nat.le_trans hletter hnine) (by decide)

theorem read_word {c : Char} {cs text : List Char}
    (hword : ∀ d ∈ c :: cs, isWordChar d) (hstop : StopsAt isWordChar text) :
    read c (cs ++ text) =
      (token (.ofWord (String.ofList (c :: cs))) (String.ofList (c :: cs))
        (c :: cs), text) := by
  have hc : isWordChar c := hword c List.mem_cons_self
  have hcs : ∀ d ∈ cs, isWordChar d :=
    fun d hd => hword d (List.mem_cons_of_mem c hd)
  simp [read, isBlank_of_isWordChar hc, hc, takeWhile_eq hcs hstop,
    dropWhile_eq hcs hstop]

theorem read_digits {c : Char} {cs text : List Char}
    (hdigits : ∀ d ∈ c :: cs, d.isDigit) (hstop : StopsAt Char.isDigit text) :
    read c (cs ++ text) =
      (token .int (String.ofList (c :: cs)) (c :: cs), text) := by
  have hc : c.isDigit := hdigits c List.mem_cons_self
  have hcs : ∀ d ∈ cs, d.isDigit :=
    fun d hd => hdigits d (List.mem_cons_of_mem c hd)
  simp [read, isBlank_of_isDigit hc, isWordChar_of_isDigit hc, hc,
    takeWhile_eq hcs hstop, dropWhile_eq hcs hstop]

end Piece

namespace Integer

/-- Digits are read without a sign. -/
theorem ofText?_of_isDigit {text : String} (h : ∀ c ∈ text.toList, c.isDigit) :
    ofText? text = (magnitude? text.toList).bind fun n => ofInt? n := by
  unfold ofText?
  split
  · next digits hdigits =>
      rw [hdigits] at h
      exact absurd (h '-' List.mem_cons_self) (by decide)
  · next digits hdigits =>
      rw [hdigits] at h
      exact absurd (h '+' List.mem_cons_self) (by decide)
  · rfl

theorem toInt_nonneg_of_ofText? {text : String} {value : Int64}
    (hdigits : ∀ c ∈ text.toList, c.isDigit) (h : ofText? text = some value) :
    0 ≤ value.toInt := by
  rw [ofText?_of_isDigit hdigits, Option.bind_eq_some_iff] at h
  obtain ⟨n, _, hn⟩ := h
  rw [toInt_of_ofInt?_eq_some hn]
  exact Int.natCast_nonneg n

theorem toList_toText {value : Int64} (h : 0 ≤ value.toInt) :
    (toText value).toList = Nat.toDigits 10 value.toInt.toNat := by
  have htext : toText value = toString value.toInt.toNat := by
    rw [toText]
    obtain ⟨n, hn⟩ := Int.eq_ofNat_of_zero_le h
    rw [hn]
    rfl
  rw [htext]
  simp

theorem isDigit_toText {value : Int64} (h : 0 ≤ value.toInt) :
    ∀ c ∈ (toText value).toList, c.isDigit := by
  rw [toList_toText h]
  intro c hc
  exact Nat.isDigit_of_mem_toDigits (by decide) (by decide) hc

theorem toList_toText_ne_nil {value : Int64} (h : 0 ≤ value.toInt) :
    (toText value).toList ≠ [] := by
  rw [toList_toText h]
  exact Nat.toDigits_ne_nil

theorem ofText?_toText {value : Int64} (h : 0 ≤ value.toInt) :
    ofText? (toText value) = some value := by
  have hdigits := isDigit_toText h
  have hmagnitude : magnitude? (toText value).toList =
      some value.toInt.toNat := by
    rw [magnitude?, if_pos ⟨toList_toText_ne_nil h, List.all_eq_true.2 hdigits⟩,
      toList_toText h, Nat.ofDigitChars_toDigits (by decide) (by decide)]
  rw [ofText?_of_isDigit hdigits, hmagnitude, Option.bind_some,
    Int.toNat_of_nonneg h, ofInt?_toInt]

end Integer

namespace Quoted

/-- Inside a literal a character stands for itself or is escaped. -/
theorem escape_cases (c : Char) :
    (escape c = [c] ∧ c ≠ '"' ∧ c ≠ '\\') ∨ ∃ e, escape c = ['\\', e] ∧
      unescape e = c := by
  by_cases hquote : c = '"'
  · exact Or.inr ⟨'"', by rw [hquote]; rfl, hquote.symm⟩
  by_cases hbackslash : c = '\\'
  · exact Or.inr ⟨'\\', by rw [hbackslash]; rfl, hbackslash.symm⟩
  rcases unescape_escape c with hself | hescaped
  · exact Or.inl ⟨hself, hquote, hbackslash⟩
  · exact Or.inr hescaped

/-- The text between the quotes of a literal, and the contents it stands for. -/
inductive Spells : List Char → List Char → Prop
  | nil : Spells [] []
  | plain {c : Char} {text contents : List Char} (hquote : c ≠ '"')
      (hbackslash : c ≠ '\\') (h : Spells text contents) :
      Spells (c :: text) (c :: contents)
  | escaped (c : Char) {text contents : List Char} (h : Spells text contents) :
      Spells ('\\' :: c :: text) (unescape c :: contents)

theorem spells_escape (contents : List Char) :
    Spells (contents.flatMap escape) contents := by
  induction contents with
  | nil => exact .nil
  | cons c contents ih =>
      rw [List.flatMap_cons]
      rcases escape_cases c with
        ⟨hescape, hquote, hbackslash⟩ | ⟨e, hescape, rfl⟩
      · rw [hescape]
        exact .plain hquote hbackslash ih
      · rw [hescape]
        exact .escaped e ih

section

variable {text contents : List Char}

theorem Spells.spanBody_closed (h : Spells text contents) (after : List Char) :
    spanBody (text ++ '"' :: after) = (text ++ ['"'], after) := by
  induction h with
  | nil => rfl
  | plain hquote hbackslash _ ih =>
      rw [List.cons_append, spanBody, ih]
      · rfl
      · exact hquote
      · exact fun hlast => absurd hlast hbackslash
      · exact fun d rest hlast => absurd hlast hbackslash
  | escaped c _ ih =>
      rw [List.cons_append, List.cons_append, spanBody, ih]
      rfl

theorem Spells.contents?_closed (h : Spells text contents) :
    contents? (text ++ ['"']) = some contents := by
  induction h with
  | nil => rfl
  | plain hquote hbackslash _ ih =>
      rw [List.cons_append, contents?, ih]
      · rfl
      · exact fun hlast => absurd hlast hquote
      · exact fun d rest hlast => absurd hlast hbackslash
  | escaped c _ ih =>
      rw [List.cons_append, List.cons_append, contents?, ih]
      rfl

end

end Quoted

theorem Piece.read_quoted {body contents : List Char}
    (h : Quoted.Spells body contents) (text : List Char) :
    read '"' (body ++ '"' :: text) =
      (token .string (String.ofList contents) ('"' :: body ++ ['"']),
        text) := by
  have hspan := h.spanBody_closed text
  have hcontents := h.contents?_closed
  simp [read, isBlank, isWordChar, hspan, ofStringBody, hcontents]

/-- A text and further ones, each behind a separator. -/
theorem toList_intercalate_cons (separator first : String)
    (texts : List String) :
    (separator.intercalate (first :: texts)).toList =
      first.toList ++ texts.flatMap fun text =>
      separator.toList ++ text.toList := by
  rw [String.toList_intercalate]
  induction texts generalizing first with
  | nil => simp
  | cons second texts ih =>
      have hsecond := ih second
      rw [List.map_cons] at hsecond
      rw [List.map_cons, List.map_cons, List.intercalate_cons_cons, hsecond,
        List.flatMap_cons, List.append_assoc, List.append_assoc]

theorem lineFeeds_append (text text' : List Char) :
    lineFeeds (text ++ text') = lineFeeds text + lineFeeds text' :=
  List.count_append

/-- A blank in front of a text only counts for its line. -/
theorem Piece.tokens_blank {c : Char} (hc : isBlank c) (line : Nat)
    (text : List Char) :
    tokens line (cut (c :: text)) =
      tokens (line + lineFeeds [c]) (cut text) := by
  have hread : ∀ {d : Char} (rest : List Char), isBlank d →
      read d rest =
        (gap (d :: rest.takeWhile isBlank), rest.dropWhile isBlank) := by
    intro d rest hd
    simp [read, hd]
  rw [cut, hread text hc]
  cases text with
  | nil => simp [cut, tokens]
  | cons d rest =>
      by_cases hblank : isBlank d
      · -- The gap goes on, so it is cut at the same place from `d` on.
        have hfeeds := lineFeeds_append [c] (d :: rest.takeWhile isBlank)
        rw [List.singleton_append] at hfeeds
        rw [cut, hread rest hblank, List.takeWhile_cons_of_pos hblank,
          List.dropWhile_cons_of_pos hblank, tokens, tokens, hfeeds,
          Nat.add_assoc]
      · rw [List.takeWhile_cons_of_neg hblank,
          List.dropWhile_cons_of_neg hblank, tokens]

/-- The tokens of a text that starts on some line. -/
def Lexed (text : List Char) (tokens : List Token) : Prop :=
  ∃ line, tokens = Piece.tokens line (Piece.cut text)

namespace Lexed

open Piece

variable {c : Char} {cs text : List Char} {tokens : List Token}

theorem eq_nil (h : Lexed [] tokens) : tokens = [] := by
  obtain ⟨line, rfl⟩ := h
  simp [cut, Piece.tokens]

theorem token {kind : TokenKind} {literal : String} {spelling : List Char}
    (h : Lexed (c :: cs) tokens)
    (hread : read c cs = (.token kind literal spelling, text)) :
    ∃ token later, tokens = token :: later ∧ token.kind = kind ∧
      token.literal = literal ∧
      Lexed text later := by
  obtain ⟨line, rfl⟩ := h
  rw [cut, hread]
  exact ⟨_, _, rfl, rfl, rfl, _, rfl⟩

theorem blank (h : Lexed (' ' :: text) tokens) : Lexed text tokens := by
  obtain ⟨line, rfl⟩ := h
  exact ⟨_, tokens_blank (by decide) line text⟩

end Lexed

/-- The text does not go on with anything that a word or a number could take
in. -/
def Apart (text : List Char) : Prop :=
  Piece.StopsAt (fun c => Piece.isWordChar c || c.isDigit) text

theorem apart_nil : Apart [] := nofun

theorem apart_cons {c : Char} {text : List Char}
    (h : (Piece.isWordChar c || c.isDigit) = false) : Apart (c :: text) := by
  intro d hd
  cases hd
  exact h

theorem Apart.isWordChar {text : List Char} (h : Apart text) :
    Piece.StopsAt Piece.isWordChar text :=
  fun c hc => (Bool.or_eq_false_iff.1 (h c hc)).1

theorem Apart.isDigit {text : List Char} (h : Apart text) :
    Piece.StopsAt Char.isDigit text :=
  fun c hc => (Bool.or_eq_false_iff.1 (h c hc)).2

namespace Lexed

open Piece

variable {text : List Char} {tokens : List Token}

theorem word {word : String} (h : Lexed (word.toList ++ text) tokens)
    (hne : word.toList ≠ []) (hword : word.toList.all Piece.isWordChar)
    (hapart : Apart text) :
    ∃ token later, tokens = token :: later ∧ token.kind = .ofWord word ∧
      token.literal = word ∧ Lexed text later := by
  rw [List.all_eq_true] at hword
  obtain ⟨c, cs, hcs⟩ := List.exists_cons_of_ne_nil hne
  have hspelled : String.ofList (c :: cs) = word := by
    rw [← hcs, String.ofList_toList]
  rw [hcs] at h hword
  rw [← hspelled]
  exact h.token (read_word hword hapart.isWordChar)

theorem name {name : String} (h : Lexed (name.toList ++ text) tokens)
    (hname : IsName name) (hapart : Apart text) :
    ∃ token later, tokens = token :: later ∧ token.kind = .ident ∧
      token.literal = name ∧ Lexed text later := by
  rw [← TokenKind.ofWord_of_not_keyword hname.not_keyword]
  exact h.word hname.ne_nil (List.all_eq_true.2 hname.isWordChar) hapart

theorem integer {value : Int64}
    (h : Lexed ((Integer.toText value).toList ++ text) tokens)
    (hvalue : 0 ≤ value.toInt) (hapart : Apart text) :
    ∃ token later, tokens = token :: later ∧ token.kind = .int ∧
      Integer.ofText? token.literal = some value ∧ Lexed text later := by
  have hdigits := Integer.isDigit_toText hvalue
  have hread := Integer.ofText?_toText hvalue
  obtain ⟨c, cs, hcs⟩ :=
    List.exists_cons_of_ne_nil (Integer.toList_toText_ne_nil hvalue)
  rw [← String.ofList_toList (s := Integer.toText value)] at hread
  rw [hcs] at h hdigits hread
  obtain ⟨token, later, rfl, hkind, hliteral, hlater⟩ :=
    h.token (read_digits hdigits hapart.isDigit)
  exact ⟨token, later, rfl, hkind, hliteral ▸ hread, hlater⟩

theorem quoted {contents : String}
    (h : Lexed ((Quoted.quote contents).toList ++ text) tokens) :
    ∃ token later, tokens = token :: later ∧ token.kind = .string ∧
      token.literal = contents ∧ Lexed text later := by
  have hspelled : (Quoted.quote contents).toList ++ text =
      '"' :: (contents.toList.flatMap Quoted.escape ++ '"' :: text) := by
    simp [Quoted.quote, Quoted.encode]
  rw [hspelled] at h
  rw [← String.ofList_toList (s := contents)]
  exact h.token (read_quoted (Quoted.spells_escape contents.toList) text)

end Lexed

end Scriptlet
