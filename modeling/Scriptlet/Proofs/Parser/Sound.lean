/-
What the parser reads without a diagnostic, the grammar derives.  A run is taken
apart step by step: every step of a run without diagnostics is without
diagnostics itself.
-/
import Scriptlet.Proofs.Parser.Phrase
import Scriptlet.Proofs.Parser.Reads

namespace Scriptlet

theorem Cursor.At.eq_cons {cursor : Cursor} {tokens : List Token}
    (h : cursor.At tokens) (hkind : cursor.peek.kind ≠ .eof) :
    ∃ later, tokens = cursor.peek :: later := by
  cases tokens with
  | nil => exact absurd h.peek_kind hkind
  | cons token later => exact ⟨later, by rw [h.peek_eq]⟩

namespace Parser

variable {ε α β : Type} {cursor after : Cursor} {b : β}

theorem quiet_pure {a a' : α}
    (h : (pure a : Parser ε α).run cursor = ⟨.ok a', [], after⟩) :
    a' = a ∧ after = cursor := by
  cases h
  exact ⟨rfl, rfl⟩

theorem quiet_bind {first : Parser ε α} {next : α → Parser ε β}
    (h : (first >>= next).run cursor = ⟨.ok b, [], after⟩) :
    ∃ a middle, first.run cursor = ⟨.ok a, [], middle⟩ ∧
      (next a).run middle = ⟨.ok b, [], after⟩ := by
  rw [run_bind, continueWith] at h
  split at h
  · cases h
  · next a hok =>
      injection h with hresult hdiagnostics hrest
      obtain ⟨hfirst, hnext⟩ := List.append_eq_nil_iff.1 hdiagnostics
      refine ⟨a, (first.run cursor).rest, ?_, ?_⟩
      · rw [← hok, ← hfirst]
      · rw [← hresult, ← hnext, ← hrest]

theorem quiet_expect {kind : TokenKind} {token : Token}
    (h : (expect kind).run cursor = ⟨.ok token, [], after⟩) :
    token = cursor.peek ∧ cursor.peek.kind = kind ∧ after = cursor.advance := by
  obtain ⟨peeked, middle, hpeek, hrest⟩ := quiet_bind h
  cases hpeek
  split at hrest
  · next hkind =>
      cases hrest
      exact ⟨rfl, hkind, rfl⟩
  · cases hrest

theorem quiet_token {kind : TokenKind} {token : Token} {tokens : List Token}
    (hkind : kind ≠ .eof)
    (h : (expect kind).run cursor = ⟨.ok token, [], after⟩)
    (hat : cursor.At tokens) :
    ∃ later, tokens = token :: later ∧ token.kind = kind ∧ after.At later := by
  obtain ⟨rfl, rfl, rfl⟩ := quiet_expect h
  obtain ⟨later, rfl⟩ := hat.eq_cons hkind
  exact ⟨later, rfl, rfl, hat.advance⟩

theorem quiet_skip {kind : TokenKind} {skipped : Bool}
    (h : (skip kind : Parser ε Bool).run cursor = ⟨.ok skipped, [], after⟩) :
    (cursor.peek.kind = kind ∧ skipped = true ∧ after = cursor.advance) ∨
      (cursor.peek.kind ≠ kind ∧ skipped = false ∧ after = cursor) := by
  obtain ⟨peeked, middle, hpeek, hrest⟩ := quiet_bind h
  cases hpeek
  split at hrest
  · next hkind =>
      cases hrest
      exact Or.inl ⟨hkind, rfl, rfl⟩
  · next hkind =>
      cases hrest
      exact Or.inr ⟨hkind, rfl, rfl⟩

/-- Whatever the parser gives without a diagnostic stands in the relation to the
tokens before and after. -/
def Yields (parser : Parser Diagnostic α)
    (relation : List Token → List Token → α → Prop) : Prop :=
  ∀ (cursor after : Cursor) (tokens : List Token) (a : α), cursor.At tokens →
    parser.run cursor = ⟨.ok a, [], after⟩ → ∃ rest, after.At rest ∧
    relation tokens rest a

/-- Items with a comma in front of each. -/
inductive CommaList (relation : List Token → List Token → α → Prop) :
    List Token → List Token → List α → Prop
  | nil {rest : List Token} : CommaList relation rest rest []
  | cons {comma : Token} {tokens tokens' rest : List Token} {a : α}
      {others : List α} (hcomma : comma.kind = .comma)
      (hitem : relation tokens tokens' a)
      (hothers : CommaList relation tokens' rest others) :
      CommaList relation (comma :: tokens) rest (a :: others)

variable {relation : List Token → List Token → α → Prop}
  {item : Parser Diagnostic α}

theorem yields_commaItems (hitem : item.Yields relation) :
    (commaItems item).Yields (CommaList relation) := by
  intro cursor after tokens items hat hrun
  by_cases hcomma : cursor.peek.kind = .comma
  · obtain ⟨later, rfl⟩ := hat.eq_cons (by simp [hcomma])
    rw [run_commaItems_of_comma item hcomma] at hrun
    obtain ⟨a, middle, hfirst, hrun⟩ := quiet_bind hrun
    obtain ⟨others, last, hothers, hrun⟩ := quiet_bind hrun
    obtain ⟨rfl, rfl⟩ := quiet_pure hrun
    obtain ⟨between, hmiddle, hrelation⟩ := hitem _ _ _ _ hat.advance hfirst
    have hshorter : middle.remaining < cursor.remaining := by
      have hle := item.remaining_le cursor.advance
      rw [hfirst] at hle
      obtain ⟨unread, hunread⟩ := hat.unread_cons
      exact Nat.lt_of_le_of_lt hle (Cursor.remaining_advance_lt hunread)
    obtain ⟨rest, hrest, hlist⟩ :=
      yields_commaItems hitem middle _ between others hmiddle hothers
    exact ⟨rest, hrest, CommaList.cons hcomma hrelation hlist⟩
  · rw [run_commaItems_of_ne item hcomma] at hrun
    cases hrun
    exact ⟨tokens, hat, CommaList.nil⟩
termination_by cursor => cursor.remaining

/-- A list of items between an opening and a closing token, both left out. -/
def Listed (relation : List Token → List Token → α → Prop)
    (tokens rest : List Token) (items : List α) : Prop :=
  (items = [] ∧ tokens = rest) ∨
    ∃ a others middle, items = a :: others ∧ relation tokens middle a ∧
      CommaList relation middle rest others

theorem yields_delimited {close wanted : TokenKind} (hclose : close ≠ .eof)
    (hitem : item.Yields relation) :
    (delimited close wanted item).Yields fun tokens rest items =>
      ∃ closing : Token, closing.kind = close ∧
        Listed relation tokens (closing :: rest) items := by
  intro cursor after tokens items hat hrun
  obtain ⟨skipped, start, hskip, hitems⟩ := quiet_bind hrun
  rcases quiet_skip hskip with ⟨hkind, rfl, rfl⟩ | ⟨hkind, rfl, rfl⟩
  · obtain ⟨rest, rfl⟩ := hat.eq_cons (hkind ▸ hclose)
    obtain ⟨rfl, rfl⟩ := quiet_pure hitems
    exact ⟨rest, hat.advance, cursor.peek, hkind, Or.inl ⟨rfl, rfl⟩⟩
  · rw [if_neg Bool.false_ne_true] at hitems
    obtain ⟨first, middle, hfirst, hrun⟩ := quiet_bind hitems
    obtain ⟨others, last, hothers, hrun⟩ := quiet_bind hrun
    obtain ⟨between, hmiddle, hrelation⟩ := hitem _ _ _ _ hat hfirst
    obtain ⟨behind, hlast, hlist⟩ :=
      yields_commaItems hitem _ _ _ _ hmiddle hothers
    obtain ⟨token, peeked, hpeek, hrun⟩ := quiet_bind hrun
    cases hpeek
    split at hrun
    · next hkind' =>
        obtain ⟨rest, rfl⟩ := hlast.eq_cons (hkind' ▸ hclose)
        cases hrun
        refine ⟨rest, hlast.advance, last.peek, hkind', Or.inr ?_⟩
        exact ⟨first, others, between, rfl, hrelation, hlist⟩
    · cases hrun

/-- Items one after the other up to the end or to a closing token. -/
inductive Repeats (closes : TokenKind → Bool)
    (relation : List Token → List Token → α → Prop) :
    List Token → List Token → List α → Prop
  | ended : Repeats closes relation [] [] []
  | closed {token : Token} {rest : List Token} (hcloses : closes token.kind) :
      Repeats closes relation (token :: rest) rest []
  | cons {tokens tokens' rest : List Token} {a : α} {others : List α}
      (hitem : relation tokens tokens' a)
      (hothers : Repeats closes relation tokens' rest others) :
      Repeats closes relation tokens rest (a :: others)

theorem quiet_repeated {closes : TokenKind → Bool}
    {item : Token → Parser Diagnostic α} {items : List α}
    (hkind : ¬ (cursor.peek.kind = .eof ∨ closes cursor.peek.kind))
    (h : (repeated closes item).run cursor = ⟨.ok items, [], after⟩) :
    ∃ a others middle, items = a :: others ∧
      (fromNext item).run cursor = ⟨.ok a, [], middle⟩ ∧
      (repeated closes item).run middle = ⟨.ok others, [], after⟩ := by
  rw [run_repeated_of_open item hkind] at h
  injection h with hresult hdiagnostics hrest
  obtain ⟨hfirst, hothers⟩ := List.append_eq_nil_iff.1 hdiagnostics
  -- A failed item would have been reported.
  cases hitem : ((fromNext item).run cursor).result with
  | error e => simp [Outcome.reported, hitem] at hfirst
  | ok a =>
      cases hrun : ((repeated closes item).run
          ((fromNext item).run cursor).rest).result with
      | error e => simp [Outcome.map, hrun, Except.map] at hresult
      | ok others =>
          refine ⟨a, others, ((fromNext item).run cursor).rest, ?_, ?_, ?_⟩
          · simpa [Outcome.map, hrun, hitem, Except.map, Except.toOption]
              using hresult.symm
          · rw [Outcome.reported, hitem] at hfirst
            rw [← hitem, ← hfirst]
          · rw [← hrun, ← hothers, ← hrest]
            rfl

theorem yields_repeated {closes : TokenKind → Bool}
    {item : Token → Parser Diagnostic α}
    (hitem : (fromNext item).Yields relation) :
    (repeated closes item).Yields (Repeats closes relation) := by
  intro cursor after tokens items hat hrun
  by_cases hkind : cursor.peek.kind = .eof ∨ closes cursor.peek.kind
  · rw [run_repeated_of_closes item hkind] at hrun
    cases hrun
    cases tokens with
    | nil => exact ⟨[], hat.advance, Repeats.ended⟩
    | cons token later =>
        rw [hat.peek_eq] at hkind
        exact ⟨later, hat.advance,
          Repeats.closed (hkind.resolve_left hat.kind_ne_eof)⟩
  · obtain ⟨a, others, middle, rfl, hfirst, hothers⟩ :=
      quiet_repeated hkind hrun
    obtain ⟨between, hmiddle, hrelation⟩ := hitem _ _ _ _ hat hfirst
    have hshorter : middle.remaining < cursor.remaining := by
      have hless := remaining_fromNext_lt item fun heof => hkind (Or.inl heof)
      rwa [hfirst] at hless
    obtain ⟨rest, hrest, hlist⟩ :=
      yields_repeated hitem middle after between others hmiddle hothers
    exact ⟨rest, hrest, Repeats.cons hrelation hlist⟩
termination_by cursor => cursor.remaining

end Parser

open Scriptlet.Parser

namespace Level

/-- The loosest level that is read whole under a binding. -/
def above : Precedence → Level
  | .lowest => equality
  | .equals => comparison
  | .lessGreater => sum
  | .sum => product
  | .product | .unary => unary
  | .call | .index => chain

def rank : Level → Nat
  | equality => 0
  | comparison => 1
  | sum => 2
  | product => 3
  | unary => 4
  | chain => 5

/-- The level that an operator belongs to. -/
def ofOperator : BinaryOp → Level
  | .equal | .notEqual => equality
  | .less | .greater => comparison
  | .add | .sub => sum
  | .mul | .div | .mod => product

theorem rank_tighter {level : Level} (h : level.rank < 5) :
    level.tighter.rank = level.rank + 1 := by
  cases level <;> first | rfl | (revert h; decide)

theorem eq_of_rank {level other : Level} (h : level.rank = other.rank) :
    level = other := by
  cases level <;> cases other <;> first | rfl | (revert h; decide)

theorem rank_le_five (level : Level) : level.rank ≤ 5 := by
  cases level <;> decide

/-- What passes from the next level to a level passes to every looser one. -/
theorem of_tighter {motive : Level → Prop} {level looser : Level}
    (step : ∀ level : Level, level.rank < 5 → motive level.tighter →
      motive level)
    (h : looser.rank ≤ level.rank) (hlevel : motive level) : motive looser := by
  obtain ⟨distance, hdistance⟩ := Nat.exists_eq_add_of_le h
  induction distance generalizing looser with
  | zero => exact eq_of_rank hdistance ▸ hlevel
  | succ distance ih =>
      have hlevel := level.rank_le_five
      have htighter := rank_tighter (by omega : looser.rank < 5)
      exact step looser (by omega) (@ih looser.tighter (by omega) (by omega))

theorem rank_above_le {strength : Precedence} {level : Level}
    (h : strength.rank ≤ level.floor.rank) :
    (above strength).rank ≤ level.rank := by
  cases strength <;> cases level <;> first | decide | (revert h; decide)

theorem rank_ofOperator_le {op : BinaryOp} {level : Level}
    (h : op.precedence.rank ≤ level.ceiling.rank) :
    (ofOperator op).rank ≤ level.rank := by
  cases op <;> cases level <;> first | decide | (revert h; decide)

theorem eq_chain_of_le {level : Level}
    (h : Precedence.call.rank ≤ level.ceiling.rank) : level = chain := by
  cases level <;> first | rfl | (revert h; decide)

theorem above_precedence (op : BinaryOp) :
    above op.precedence = (ofOperator op).tighter := by
  cases op <;> rfl

theorem ceiling_ofOperator (op : BinaryOp) :
    (ofOperator op).ceiling = op.precedence := by
  cases op <;> rfl

theorem le_floor_ofOperator {strength : Precedence} {op : BinaryOp}
    (h : strength.rank < op.precedence.rank) :
    strength.rank ≤ (ofOperator op).floor.rank := by
  cases op <;> exact Nat.le_of_lt_succ h

end Level

variable {ends : List Token → Prop} {tokens rest : List Token} {e : Expr}

/-- An expression of a level is one of every looser level. -/
theorem Phrase.loosen {level looser : Level} (h : looser.rank ≤ level.rank)
    (phrase : Nonempty (Phrase ends level tokens rest e)) :
    Nonempty (Phrase ends looser tokens rest e) := by
  refine Level.of_tighter (motive :=
    fun level => Nonempty (Phrase ends level tokens rest e))
      (fun _ _ hinner => ?_) h phrase
  obtain ⟨inner⟩ := hinner
  exact ⟨.tighter inner⟩

theorem operator?_ofOperator {kind : TokenKind} {op : BinaryOp}
    (h : kind.extension? = some (.operator op)) :
    (Level.ofOperator op).operator? kind = some op := by
  cases kind <;> cases h <;> rfl

namespace Parser

theorem nonempty_furtherItems {es : List Expr}
    (h :
      CommaList
        (fun tokens rest e => Nonempty (Phrase ends .equality tokens rest e))
      tokens rest es) :
    Nonempty (FurtherItems ends tokens rest es) := by
  induction h with
  | nil => exact ⟨.nil⟩
  | cons hcomma hitem _ ih =>
      obtain ⟨first⟩ := hitem
      obtain ⟨others⟩ := ih
      exact ⟨.cons hcomma first others⟩

theorem nonempty_items {es : List Expr}
    (h :
      Listed
        (fun tokens rest e => Nonempty (Phrase ends .equality tokens rest e))
      tokens rest es) :
    Nonempty (Items ends tokens rest es) := by
  rcases h with ⟨rfl, rfl⟩ | ⟨e, es, middle, rfl, ⟨first⟩, hothers⟩
  · exact ⟨.none⟩
  · obtain ⟨others⟩ := nonempty_furtherItems hothers
    exact ⟨.some first others⟩

/-- `E ':' E` -/
def IsEntry (ends : List Token → Prop) (tokens rest : List Token)
    (pair : Expr × Expr) : Prop :=
  ∃ (colon : Token) (tokens' : List Token),
    Nonempty (Phrase ends .equality tokens (colon :: tokens') pair.1) ∧
      colon.kind = .colon ∧ Nonempty (Phrase ends .equality tokens' rest pair.2)

theorem nonempty_furtherEntries {pairs : List (Expr × Expr)}
    (h : CommaList (IsEntry ends) tokens rest pairs) :
    Nonempty (FurtherEntries ends tokens rest pairs) := by
  induction h with
  | nil => exact ⟨.nil⟩
  | cons hcomma hitem _ ih =>
      obtain ⟨colon, middle, ⟨key⟩, hcolon, ⟨value⟩⟩ := hitem
      obtain ⟨others⟩ := ih
      exact ⟨.cons hcomma key hcolon value others⟩

theorem nonempty_entries {pairs : List (Expr × Expr)}
    (h : Listed (IsEntry ends) tokens rest pairs) :
    Nonempty (Entries ends tokens rest pairs) := by
  rcases h with ⟨rfl, rfl⟩ | ⟨pair, pairs, middle, rfl, hfirst, hothers⟩
  · exact ⟨.none⟩
  · obtain ⟨colon, between, ⟨key⟩, hcolon, ⟨value⟩⟩ := hfirst
    obtain ⟨others⟩ := nonempty_furtherEntries hothers
    exact ⟨.some key hcolon value others⟩

/-- One identifier. -/
def IsNameToken (tokens rest : List Token) (name : Token) : Prop :=
  tokens = name :: rest ∧ name.kind = .ident

theorem furtherNames_of_commaList {names : List Token}
    (h : CommaList IsNameToken tokens rest names) :
    FurtherNames tokens rest (names.map Token.literal) := by
  induction h with
  | nil => exact .nil
  | cons hcomma hitem _ ih =>
      obtain ⟨rfl, hname⟩ := hitem
      exact .cons hcomma hname ih

theorem names_of_listed {names : List Token}
    (h : Listed IsNameToken tokens rest names) :
    Names tokens rest (names.map Token.literal) := by
  rcases h with ⟨rfl, rfl⟩ | ⟨name, names, middle, rfl, ⟨rfl, hname⟩, hothers⟩
  · exact .none
  · exact .some hname (furtherNames_of_commaList hothers)

/-- An expression as far as it has been read, and may still be extended. -/
def IsLeft (ends : List Token → Prop) (strength : Precedence)
    (tokens rest : List Token) (e : Expr) : Prop :=
  ∃ level : Level, Nonempty (Phrase ends level tokens rest e) ∧
    strength.rank ≤ level.floor.rank ∧
    (nextKind rest).precedence.rank ≤ level.ceiling.rank

/-- An expression that has been read whole under a binding. -/
def IsOperand (ends : List Token → Prop) (strength : Precedence)
    (tokens rest : List Token) (e : Expr) : Prop :=
  Nonempty (Phrase ends (.above strength) tokens rest e) ∧
    (nextKind rest).precedence.rank ≤ strength.rank

theorem rank_precedence_le (kind : TokenKind) :
    kind.precedence.rank ≤ Level.chain.ceiling.rank := by
  cases kind <;> decide

theorem IsLeft.of_chain {strength : Precedence} (hstrength : strength.rank ≤ 5)
    (phrase : Nonempty (Phrase ends .chain tokens rest e)) :
    IsLeft ends strength tokens rest e :=
  ⟨.chain, phrase, hstrength, rank_precedence_le _⟩

theorem IsLeft.isOperand {strength : Precedence}
    (h : IsLeft ends strength tokens rest e)
    (hstop : (nextKind rest).precedence.rank ≤ strength.rank) :
    IsOperand ends strength tokens rest e := by
  obtain ⟨level, phrase, hfloor, _⟩ := h
  exact ⟨Phrase.loosen (Level.rank_above_le hfloor) phrase, hstop⟩

variable {read : ExprParser} {strength : Precedence}

/-- Under every binding that the parser uses, `read` gives operands. -/
def ReadsOperands (ends : List Token → Prop) (read : ExprParser) : Prop :=
  ∀ strength : Precedence, strength.rank ≤ 5 →
    (operand read strength).Yields (IsOperand ends strength)

theorem ReadsOperands.whole (h : ReadsOperands ends read) :
    (operand read .lowest).Yields fun tokens rest e =>
      Nonempty (Phrase ends .equality tokens rest e) := by
  intro cursor after tokens e hat hrun
  obtain ⟨rest, hrest, phrase, _⟩ :=
    h .lowest (by decide) cursor after tokens e hat hrun
  exact ⟨rest, hrest, phrase⟩

theorem yields_pair (h : ReadsOperands ends read) :
    (pair read).Yields (IsEntry ends) := by
  intro cursor after tokens entry hat hrun
  obtain ⟨key, cursor₁, hkey, hrun₁⟩ := quiet_bind hrun
  obtain ⟨colon, cursor₂, hcolon, hrun₂⟩ := quiet_bind hrun₁
  obtain ⟨value, cursor₃, hvalue, hrun₃⟩ := quiet_bind hrun₂
  obtain ⟨rfl, rfl⟩ := quiet_pure hrun₃
  obtain ⟨behind, hat₁, keyPhrase⟩ := h.whole _ _ _ _ hat hkey
  obtain ⟨later, rfl, hkind, hat₂⟩ := quiet_token (by decide) hcolon hat₁
  obtain ⟨rest, hat₃, valuePhrase⟩ := h.whole _ _ _ _ hat₂ hvalue
  exact ⟨rest, hat₃, colon, later, keyPhrase, hkind, valuePhrase⟩

theorem yields_expect_ident : (expect .ident).Yields IsNameToken := by
  intro cursor after tokens name hat hrun
  obtain ⟨later, rfl, hkind, hlater⟩ := quiet_token (by decide) hrun hat
  exact ⟨later, hlater, rfl, hkind⟩

/-- The token that opens an expression this way. -/
def kindOf : Opening → TokenKind
  | .identifier => .ident
  | .integer => .int
  | .string => .string
  | .boolean true => .trueWord
  | .boolean false => .falseWord
  | .operator .not => .bang
  | .operator .negate => .minus
  | .group => .lparen
  | .array => .lbracket
  | .hash => .lbrace
  | .conditional => .ifWord
  | .function => .functionWord
  | .illegal => .illegal

theorem kind_of_opening {kind : TokenKind} {opening : Opening}
    (h : kind.opening? = some opening) : kind = kindOf opening := by
  cases kind <;> cases h <;> rfl

theorem extension_of_lt {kind : TokenKind}
    (h : strength.rank < kind.precedence.rank) :
    ∃ extension, kind.extension? = some extension := by
  cases hext : kind.extension? with
  | none =>
      rw [TokenKind.precedence_of_extension?_eq_none hext] at h
      exact absurd h (Nat.not_lt_zero _)
  | some extension => exact ⟨extension, rfl⟩

theorem kind_of_arguments {kind : TokenKind}
    (h : kind.extension? = some .arguments) : kind = .lparen := by
  cases kind <;> first | rfl | cases h

theorem kind_of_position {kind : TokenKind}
    (h : kind.extension? = some .position) : kind = .lbracket := by
  cases kind <;> first | rfl | cases h

/-- Folding one extension into what has been read. -/
theorem isLeft_extended (h : ReadsOperands ends read) {cursor after : Cursor}
    {middle : List Token} {left : Expr} {extension : Extension}
    (hleft : IsLeft ends strength tokens middle left) (hat : cursor.At middle)
    (hext : cursor.peek.kind.extension? = some extension)
    (hstrength : strength.rank < cursor.peek.kind.precedence.rank)
    (hlimit : strength.rank ≤ 5)
    (hrun : (extended read left extension).run cursor.advance =
      ⟨.ok e, [], after⟩) :
    ∃ rest, after.At rest ∧ IsLeft ends strength tokens rest e := by
  obtain ⟨level, phrase, hfloor, hceiling⟩ := hleft
  have hkind : cursor.peek.kind ≠ .eof := by
    intro heof
    rw [heof] at hext
    cases hext
  obtain ⟨later, rfl⟩ := hat.eq_cons hkind
  rw [nextKind_cons] at hceiling
  cases extension with
  | operator op =>
      rw [TokenKind.precedence_of_operator hext] at hstrength hceiling
      obtain ⟨right, last, hright, hrun⟩ := quiet_bind hrun
      obtain ⟨rfl, rfl⟩ := quiet_pure hrun
      have hop : op.precedence.rank ≤ 5 := by cases op <;> decide
      obtain ⟨rest, hrest, ⟨rightPhrase⟩, hstop⟩ :=
        h op.precedence hop _ _ _ _ hat.advance hright
      obtain ⟨leftPhrase⟩ :=
        Phrase.loosen (Level.rank_ofOperator_le hceiling) phrase
      rw [Level.above_precedence] at rightPhrase
      refine ⟨rest, hrest, .ofOperator op, ?_,
        Level.le_floor_ofOperator hstrength, ?_⟩
      · exact ⟨.binary leftPhrase (operator?_ofOperator hext) rightPhrase⟩
      · rw [Level.ceiling_ofOperator]
        exact hstop
  | arguments =>
      have hopen := kind_of_arguments hext
      rw [hopen] at hceiling
      obtain rfl := Level.eq_chain_of_le hceiling
      obtain ⟨leftPhrase⟩ := phrase
      obtain ⟨arguments, last, hitems, hrun⟩ := quiet_bind hrun
      obtain ⟨rfl, rfl⟩ := quiet_pure hrun
      obtain ⟨rest, hrest, closing, hclose, hlisted⟩ :=
        yields_delimited (by decide) h.whole _ _ _ _ hat.advance hitems
      obtain ⟨items⟩ := nonempty_items hlisted
      refine ⟨rest, hrest, IsLeft.of_chain hlimit ?_⟩
      exact ⟨.call leftPhrase hopen items hclose⟩
  | position =>
      have hopen := kind_of_position hext
      rw [hopen] at hceiling
      obtain rfl := Level.eq_chain_of_le (Nat.le_trans (by decide) hceiling)
      obtain ⟨leftPhrase⟩ := phrase
      obtain ⟨position, cursor₁, hposition, hrun₁⟩ := quiet_bind hrun
      obtain ⟨closing, cursor₂, hclosing, hrun₂⟩ := quiet_bind hrun₁
      obtain ⟨rfl, rfl⟩ := quiet_pure hrun₂
      obtain ⟨behind, hat₁, ⟨inner⟩⟩ := h.whole _ _ _ _ hat.advance hposition
      obtain ⟨rest, rfl, hclose, hrest⟩ := quiet_token (by decide) hclosing hat₁
      refine ⟨rest, hrest, IsLeft.of_chain hlimit ?_⟩
      exact ⟨.index leftPhrase hopen inner hclose⟩

/-- A statement with its semicolon, or one that needs none. -/
def IsSentence (ends : List Token → Prop) (tokens rest : List Token)
    (s : Statement) : Prop :=
  (∃ token : Token, token.kind = .semicolon ∧
    Nonempty (Clause ends tokens (token :: rest) s)) ∨
    (Nonempty (Clause ends tokens rest s) ∧ ends rest)

theorem isSentence_of_skip (hends : ∀ rest, Separated rest → ends rest)
    {cursor after : Cursor} {behind : List Token} {s s' : Statement}
    (hrun :
      (do let _ ← skip .semicolon; pure s : Parser Diagnostic Statement).run
        cursor = ⟨.ok s', [], after⟩)
    (clause : Nonempty (Clause ends tokens behind s)) (hat : cursor.At behind)
    (hstop : (nextKind behind).precedence.rank ≤ 0) :
    ∃ rest, after.At rest ∧ IsSentence ends tokens rest s' := by
  obtain ⟨skipped, last, hskip, hpure⟩ := quiet_bind hrun
  obtain ⟨rfl, rfl⟩ := quiet_pure hpure
  rcases quiet_skip hskip with ⟨hkind, rfl, rfl⟩ | ⟨hkind, rfl, rfl⟩
  · obtain ⟨rest, rfl⟩ := hat.eq_cons (by simp [hkind])
    exact ⟨rest, hat.advance, Or.inl ⟨cursor.peek, hkind, clause⟩⟩
  · refine ⟨behind, hat, Or.inr ⟨clause, hends behind ?_⟩⟩
    cases behind with
    | nil => trivial
    | cons token rest =>
        refine Or.inr ?_
        revert hstop
        rw [nextKind_cons]
        cases token.kind <;> decide

theorem yields_clause (h : ReadsOperands ends read) :
    (fromNext (clause read)).Yields fun tokens rest s =>
      Nonempty (Clause ends tokens rest s) ∧
      (nextKind rest).precedence.rank ≤ 0 := by
  intro cursor after tokens s hat hrun
  rw [run_fromNext, clause] at hrun
  split at hrun
  · next hword =>
      obtain ⟨later, rfl⟩ := hat.eq_cons (by simp [hword])
      obtain ⟨name, cursor₁, hname, hrun₁⟩ := quiet_bind hrun
      obtain ⟨sign, cursor₂, hsign, hrun₂⟩ := quiet_bind hrun₁
      obtain ⟨value, cursor₃, hvalue, hrun₃⟩ := quiet_bind hrun₂
      obtain ⟨rfl, rfl⟩ := quiet_pure hrun₃
      obtain ⟨later₁, rfl, hident, hat₁⟩ :=
        quiet_token (by decide) hname hat.advance
      obtain ⟨later₂, rfl, hassign, hat₂⟩ := quiet_token (by decide) hsign hat₁
      obtain ⟨rest, hrest, ⟨phrase⟩, hstop⟩ :=
        h .lowest (by decide) _ _ _ _ hat₂ hvalue
      exact ⟨rest, hrest, ⟨.binding hword hident hassign phrase⟩, hstop⟩
  · next hlet =>
      split at hrun
      · next hword =>
          obtain ⟨later, rfl⟩ := hat.eq_cons (by simp [hword])
          obtain ⟨value, cursor₁, hvalue, hrun₁⟩ := quiet_bind hrun
          obtain ⟨rfl, rfl⟩ := quiet_pure hrun₁
          obtain ⟨rest, hrest, ⟨phrase⟩, hstop⟩ :=
            h .lowest (by decide) _ _ _ _ hat.advance hvalue
          exact ⟨rest, hrest, ⟨.returning hword phrase⟩, hstop⟩
      · next hreturn =>
          obtain ⟨value, cursor₁, hvalue, hrun₁⟩ := quiet_bind hrun
          obtain ⟨rfl, rfl⟩ := quiet_pure hrun₁
          -- The first token belongs to the expression, as it does in `operand`.
          obtain ⟨rest, hrest, ⟨phrase⟩, hstop⟩ :=
            h .lowest (by decide) _ _ _ _ hat hvalue
          exact ⟨rest, hrest, ⟨.expression phrase⟩, hstop⟩

theorem yields_statement (hends : ∀ rest, Separated rest → ends rest)
    (h : ReadsOperands ends read) :
    (fromNext (statement read)).Yields (IsSentence ends) := by
  intro cursor after tokens s hat hrun
  rw [run_fromNext, statement_eq] at hrun
  obtain ⟨s', middle, hclause, hskip⟩ := quiet_bind hrun
  obtain ⟨behind, hbehind, clause, hstop⟩ := yields_clause h _ _ _ _ hat hclause
  exact isSentence_of_skip hends hskip clause hbehind hstop

theorem nonempty_sentences {braced : Bool} {ss : List Statement}
    (h : Repeats (fun kind => braced && kind == .rbrace) (IsSentence ends)
      tokens rest ss) :
    Nonempty (Sentences ends braced tokens rest ss) := by
  induction h with
  | ended => exact ⟨.ended⟩
  | closed hcloses =>
      simp only [Bool.and_eq_true, beq_iff_eq] at hcloses
      obtain ⟨rfl, hclose⟩ := hcloses
      exact ⟨.closed hclose⟩
  | cons hitem _ ih =>
      obtain ⟨others⟩ := ih
      rcases hitem with ⟨token, hsemicolon, ⟨first⟩⟩ | ⟨⟨first⟩, hend⟩
      · exact ⟨.terminated first hsemicolon others⟩
      · exact ⟨.bare first hend others⟩

theorem yields_sentences (hends : ∀ rest, Separated rest → ends rest)
    (h : ReadsOperands ends read) (braced : Bool) :
    (repeated (fun kind => braced && kind == .rbrace) (statement read)).Yields
      fun tokens rest ss =>
      Nonempty (Sentences ends braced tokens rest ss) := by
  intro cursor after tokens ss hat hrun
  obtain ⟨rest, hrest, hrepeats⟩ :=
    yields_repeated (yields_statement hends h) cursor after tokens ss hat hrun
  exact ⟨rest, hrest, nonempty_sentences hrepeats⟩

theorem yields_block (hends : ∀ rest, Separated rest → ends rest)
    (h : ReadsOperands ends read) :
    (block read).Yields fun tokens rest ss =>
      Nonempty (Sentences ends true tokens rest ss) :=
  yields_sentences hends h true

theorem yields_elseBranch (hends : ∀ rest, Separated rest → ends rest)
    (h : ReadsOperands ends read) :
    (elseBranch read).Yields fun tokens rest branch =>
      (branch = none ∧ tokens = rest) ∨
        ∃ word brace later ss, branch = some ss ∧
        tokens = word :: brace :: later ∧
          word.kind = .elseWord ∧ brace.kind = .lbrace ∧
          Nonempty (Sentences ends true later rest ss) := by
  intro cursor after tokens branch hat hrun
  obtain ⟨skipped, start, hskip, hbranch⟩ := quiet_bind hrun
  rcases quiet_skip hskip with ⟨hword, rfl, rfl⟩ | ⟨hkind, rfl, rfl⟩
  · obtain ⟨later, rfl⟩ := hat.eq_cons (by simp [hword])
    rw [if_pos rfl] at hbranch
    obtain ⟨brace, cursor₁, hbrace, hrun₁⟩ := quiet_bind hbranch
    obtain ⟨ss, cursor₂, hss, hrun₂⟩ := quiet_bind hrun₁
    obtain ⟨rfl, rfl⟩ := quiet_pure hrun₂
    obtain ⟨later₁, rfl, hkind, hat₁⟩ :=
      quiet_token (by decide) hbrace hat.advance
    obtain ⟨rest, hrest, sentences⟩ := yields_block hends h _ _ _ _ hat₁ hss
    exact ⟨rest, hrest,
      Or.inr ⟨_, brace, later₁, ss, rfl, rfl, hword, hkind, sentences⟩⟩
  · obtain ⟨rfl, rfl⟩ := quiet_pure hbranch
    exact ⟨tokens, hat, Or.inl ⟨rfl, rfl⟩⟩

theorem yields_conditional (hends : ∀ rest, Separated rest → ends rest)
    (h : ReadsOperands ends read) {cursor after : Cursor} {word : Token}
    (hat : cursor.At tokens) (hword : word.kind = .ifWord)
    (hrun : (do
      let _ ← expect .lparen
      let condition ← operand read .lowest
      let _ ← expect .rparen
      let _ ← expect .lbrace
      let consequence ← block read
      pure (.conditional condition consequence (← elseBranch read)) :
        Parser Diagnostic Expr).run cursor = ⟨.ok e, [], after⟩) :
    ∃ rest, after.At rest ∧
      Nonempty (Phrase ends .chain (word :: tokens) rest e) := by
  obtain ⟨paren, cursor₁, hparen, hrun₁⟩ := quiet_bind hrun
  obtain ⟨condition, cursor₂, hcondition, hrun₂⟩ := quiet_bind hrun₁
  obtain ⟨closing, cursor₃, hclosing, hrun₃⟩ := quiet_bind hrun₂
  obtain ⟨brace, cursor₄, hbrace, hrun₄⟩ := quiet_bind hrun₃
  obtain ⟨consequence, cursor₅, hconsequence, hrun₅⟩ := quiet_bind hrun₄
  obtain ⟨branch, cursor₆, hbranch, hrun₆⟩ := quiet_bind hrun₅
  obtain ⟨rfl, rfl⟩ := quiet_pure hrun₆
  obtain ⟨later₁, rfl, hopen, hat₁⟩ := quiet_token (by decide) hparen hat
  obtain ⟨later₂, hat₂, ⟨test⟩⟩ := h.whole _ _ _ _ hat₁ hcondition
  obtain ⟨later₃, rfl, hclose, hat₃⟩ := quiet_token (by decide) hclosing hat₂
  obtain ⟨later₄, rfl, hkind, hat₄⟩ := quiet_token (by decide) hbrace hat₃
  obtain ⟨later₅, hat₅, ⟨body⟩⟩ :=
    yields_block hends h _ _ _ _ hat₄ hconsequence
  obtain ⟨rest, hrest, halternative⟩ :=
    yields_elseBranch hends h _ _ _ _ hat₅ hbranch
  rcases halternative with
    ⟨rfl, rfl⟩ | ⟨word', brace', later, ss, rfl, rfl, hword', hkind', ⟨body'⟩⟩
  · exact ⟨later₅, hrest, ⟨.conditional hword hopen test hclose hkind body⟩⟩
  · exact ⟨rest, hrest,
      ⟨.alternative hword hopen test hclose hkind body hword' hkind' body'⟩⟩

theorem yields_function (hends : ∀ rest, Separated rest → ends rest)
    (h : ReadsOperands ends read) {cursor after : Cursor} {word : Token}
    (hat : cursor.At tokens) (hword : word.kind = .functionWord)
    (hrun : (do
      let _ ← expect .lparen
      let parameters ← delimited .rparen .rparen (expect .ident)
      let _ ← expect .lbrace
      pure (.function (parameters.map Token.literal) (← block read)) :
        Parser Diagnostic Expr).run cursor = ⟨.ok e, [], after⟩) :
    ∃ rest, after.At rest ∧
      Nonempty (Phrase ends .chain (word :: tokens) rest e) := by
  obtain ⟨paren, cursor₁, hparen, hrun₁⟩ := quiet_bind hrun
  obtain ⟨parameters, cursor₂, hparameters, hrun₂⟩ := quiet_bind hrun₁
  obtain ⟨brace, cursor₃, hbrace, hrun₃⟩ := quiet_bind hrun₂
  obtain ⟨body, cursor₄, hbody, hrun₄⟩ := quiet_bind hrun₃
  obtain ⟨rfl, rfl⟩ := quiet_pure hrun₄
  obtain ⟨later₁, rfl, hopen, hat₁⟩ := quiet_token (by decide) hparen hat
  obtain ⟨later₂, hat₂, closing, hclose, hlisted⟩ :=
    yields_delimited (by decide) yields_expect_ident _ _ _ _ hat₁ hparameters
  obtain ⟨later₃, rfl, hkind, hat₃⟩ := quiet_token (by decide) hbrace hat₂
  obtain ⟨rest, hrest, ⟨sentences⟩⟩ := yields_block hends h _ _ _ _ hat₃ hbody
  exact ⟨rest, hrest,
    ⟨.function hword hopen (names_of_listed hlisted) hclose hkind sentences⟩⟩

theorem yields_primary (hends : ∀ rest, Separated rest → ends rest)
    (h : ReadsOperands ends read) (hlimit : strength.rank ≤ 5) :
    (fromNext (primary read)).Yields (IsLeft ends strength) := by
  intro cursor after tokens e hat hrun
  rw [run_fromNext, primary] at hrun
  cases hopening : cursor.peek.kind.opening? with
  | none =>
      rw [hopening] at hrun
      cases hrun
  | some opening =>
      have hkind := kind_of_opening hopening
      rw [hopening] at hrun
      obtain ⟨later, rfl⟩ := hat.eq_cons (by
        intro heof
        rw [heof] at hopening
        cases hopening)
      have hat₁ := hat.advance
      -- Every opening but a sign gives a chain.
      cases opening with
      | identifier =>
          obtain ⟨rfl, rfl⟩ := quiet_pure hrun
          exact ⟨later, hat₁, IsLeft.of_chain hlimit ⟨.identifier hkind⟩⟩
      | integer =>
          simp only at hrun
          split at hrun
          · next value hvalue =>
              obtain ⟨rfl, rfl⟩ := quiet_pure hrun
              exact ⟨later, hat₁,
                IsLeft.of_chain hlimit ⟨.integer hkind hvalue⟩⟩
          · cases hrun
      | string =>
          obtain ⟨rfl, rfl⟩ := quiet_pure hrun
          exact ⟨later, hat₁, IsLeft.of_chain hlimit ⟨.string hkind⟩⟩
      | boolean value =>
          obtain ⟨rfl, rfl⟩ := quiet_pure hrun
          refine ⟨later, hat₁, IsLeft.of_chain hlimit ?_⟩
          cases value with
          | true => exact ⟨.truth hkind⟩
          | false => exact ⟨.falsity hkind⟩
      | operator op =>
          obtain ⟨inner, cursor₁, hinner, hrun₁⟩ := quiet_bind hrun
          obtain ⟨rfl, rfl⟩ := quiet_pure hrun₁
          obtain ⟨rest, hrest, ⟨phrase⟩, hstop⟩ :=
            h .unary (by decide) _ _ _ _ hat₁ hinner
          have hsign : signOf? cursor.peek.kind = some op := by
            rw [hkind]
            cases op <;> rfl
          exact ⟨rest, hrest, .unary, ⟨.unary hsign phrase⟩, hlimit, hstop⟩
      | group =>
          obtain ⟨inner, cursor₁, hinner, hrun₁⟩ := quiet_bind hrun
          obtain ⟨closing, cursor₂, hclosing, hrun₂⟩ := quiet_bind hrun₁
          obtain ⟨rfl, rfl⟩ := quiet_pure hrun₂
          obtain ⟨behind, hat₂, ⟨phrase⟩⟩ := h.whole _ _ _ _ hat₁ hinner
          obtain ⟨rest, rfl, hclose, hrest⟩ :=
            quiet_token (by decide) hclosing hat₂
          exact ⟨rest, hrest,
            IsLeft.of_chain hlimit ⟨.group hkind phrase hclose⟩⟩
      | array =>
          obtain ⟨elements, cursor₁, helements, hrun₁⟩ := quiet_bind hrun
          obtain ⟨rfl, rfl⟩ := quiet_pure hrun₁
          obtain ⟨rest, hrest, closing, hclose, hlisted⟩ :=
            yields_delimited (by decide) h.whole _ _ _ _ hat₁ helements
          obtain ⟨items⟩ := nonempty_items hlisted
          exact ⟨rest, hrest,
            IsLeft.of_chain hlimit ⟨.array hkind items hclose⟩⟩
      | hash =>
          obtain ⟨pairs, cursor₁, hpairs, hrun₁⟩ := quiet_bind hrun
          obtain ⟨rfl, rfl⟩ := quiet_pure hrun₁
          obtain ⟨rest, hrest, closing, hclose, hlisted⟩ :=
            yields_delimited (by decide) (yields_pair h) _ _ _ _ hat₁ hpairs
          obtain ⟨entries⟩ := nonempty_entries hlisted
          exact ⟨rest, hrest,
            IsLeft.of_chain hlimit ⟨.hash hkind entries hclose⟩⟩
      | conditional =>
          obtain ⟨rest, hrest, phrase⟩ :=
            yields_conditional hends h hat₁ hkind hrun
          exact ⟨rest, hrest, IsLeft.of_chain hlimit phrase⟩
      | function =>
          obtain ⟨rest, hrest, phrase⟩ :=
            yields_function hends h hat₁ hkind hrun
          exact ⟨rest, hrest, IsLeft.of_chain hlimit phrase⟩
      | illegal => cases hrun

/-- What has been read stays in order while it is extended. -/
theorem isOperand_extend (levels : Nat)
    (h : ∀ fewer < levels, ReadsOperands ends (expr fewer))
    {cursor after : Cursor} {middle : List Token} {left : Expr}
    (hlimit : strength.rank ≤ 5)
    (hleft : IsLeft ends strength tokens middle left) (hat : cursor.At middle)
    (hrun : (extend levels strength left).run cursor = ⟨.ok e, [], after⟩) :
    ∃ rest, after.At rest ∧ IsOperand ends strength tokens rest e := by
  induction levels generalizing cursor middle left with
  | zero =>
      by_cases hstop : cursor.peek.kind.precedence.rank ≤ strength.rank
      · rw [run_extend_of_le 0 left hstop] at hrun
        cases hrun
        exact ⟨middle, hat, hleft.isOperand (hat.peek_kind ▸ hstop)⟩
      · have hstrength := Nat.lt_of_not_le hstop
        obtain ⟨extension, hext⟩ := extension_of_lt hstrength
        rw [run_extend_zero left hext hstrength] at hrun
        cases hrun
  | succ levels ih =>
      by_cases hstop : cursor.peek.kind.precedence.rank ≤ strength.rank
      · rw [run_extend_of_le (levels + 1) left hstop] at hrun
        cases hrun
        exact ⟨middle, hat, hleft.isOperand (hat.peek_kind ▸ hstop)⟩
      · have hstrength := Nat.lt_of_not_le hstop
        obtain ⟨extension, hext⟩ := extension_of_lt hstrength
        rw [run_extend_succ levels left hext hstrength] at hrun
        obtain ⟨longer, cursor₁, hlonger, hrun₁⟩ := quiet_bind hrun
        obtain ⟨between, hat₁, hleft₁⟩ :=
          isLeft_extended (h levels (Nat.lt_succ_self levels)) hleft hat hext
            hstrength hlimit hlonger
        exact ih (fun fewer hfewer => h fewer (Nat.lt_succ_of_lt hfewer))
          hleft₁ hat₁ hrun₁

theorem readsOperands_expr (hends : ∀ rest, Separated rest → ends rest)
    (levels : Nat) : ReadsOperands ends (expr levels) := by
  induction levels using Nat.strongRecOn with
  | ind levels ih =>
      intro strength hlimit cursor after tokens e hat hrun
      cases levels with
      | zero =>
          simp only [operand, expr] at hrun
          cases hrun
      | succ levels =>
          have hrun' :
              (fromNext (primary (expr levels)) >>= extend levels strength).run
                cursor = ⟨.ok e, [], after⟩ := by
            rw [← hrun, operand]
            rfl
          obtain ⟨left, cursor₁, hleft, hrun₁⟩ := quiet_bind hrun'
          obtain ⟨middle, hat₁, hisLeft⟩ :=
            yields_primary hends (ih levels (Nat.lt_succ_self levels)) hlimit
              _ _ _ _ hat hleft
          exact isOperand_extend levels
            (fun fewer hfewer => ih fewer (Nat.lt_succ_of_lt hfewer)) hlimit
            hisLeft hat₁ hrun₁

end Parser

/-- Statements outside of braces reach the end of input. -/
theorem Sentences.rest_eq_nil {tokens rest : List Token} {ss : List Statement} :
    Sentences ends false tokens rest ss → rest = []
  | .ended => rfl
  | .terminated _ _ others => others.rest_eq_nil
  | .bare _ _ others => others.rest_eq_nil

/-- A program read without a diagnostic is derived by the tokens read. -/
theorem Parsed.derives_of_quiet (hends : ∀ rest, Separated rest → ends rest)
    {stream : TokenStream} {tokens : List Token}
    (hat : (Cursor.ofStream stream).At tokens)
    (hquiet : (Parsed.ofStream stream).diagnostics = []) :
    Derives ends tokens (Parsed.ofStream stream).program := by
  have hrun : (repeated (fun kind => false && kind == .rbrace)
      (statement (expr maxNesting))).run (.ofStream stream) =
      ⟨.ok (Parsed.ofStream stream).program, [],
        (Parser.program.run (.ofStream stream)).rest⟩ := by
    rw [← hquiet]
    rfl
  obtain ⟨rest, _, ⟨sentences⟩⟩ :=
    yields_sentences hends (readsOperands_expr hends maxNesting) false
      _ _ _ _ hat hrun
  obtain rfl := sentences.rest_eq_nil
  exact ⟨sentences⟩

end Scriptlet
