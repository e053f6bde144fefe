/-
What the grammar derives, the parser reads.  How many levels a reading takes can
be seen from the derivation: `need` counts them, and with fewer levels the
parser reports that expressions nest too deep.
-/
import Scriptlet.Proofs.Parser.Edges
import Scriptlet.Proofs.Parser.Sound

namespace Scriptlet

variable {ends : List Token → Prop} {level : Level} {tokens rest : List Token}
  {e : Expr} {es : List Expr} {pairs : List (Expr × Expr)} {s : Statement}
  {ss : List Statement}
  {braced : Bool}

/-- The number of operators, calls and indexes that are folded, one after the
other, into the first operand of a phrase. -/
def Phrase.folds {level : Level} {tokens rest : List Token} {e : Expr} :
    Phrase ends level tokens rest e → Nat
  | .call left _ _ _ => left.folds + 1
  | .index left _ _ _ => left.folds + 1
  | .binary left _ _ => left.folds + 1
  | .tighter inner => inner.folds
  | _ => 0

mutual

/-- The levels that reading a phrase takes.  What is folded into a first operand
is read with one level less for every fold before it. -/
def Phrase.need {level : Level} {tokens rest : List Token} {e : Expr} :
    Phrase ends level tokens rest e → Nat
  | .identifier _ | .integer _ _ | .string _ | .truth _ | .falsity _ => 1
  | .group _ inner _ => inner.need + 1
  | .array _ items _ => items.need + 1
  | .hash _ entries _ => entries.need + 1
  | .conditional _ _ test _ _ body => max test.need body.need + 1
  | .alternative _ _ test _ _ body _ _ body' =>
      max test.need (max body.need body'.need) + 1
  | .function _ _ _ _ _ sentences => sentences.need + 1
  | .call left _ items _ => max left.need (left.folds + 2 + items.need)
  | .index left _ inner _ => max left.need (left.folds + 2 + inner.need)
  | .unary _ operand => operand.need + 1
  | .binary left _ right => max left.need (left.folds + 2 + right.need)
  | .tighter inner => inner.need

def Items.need {tokens rest : List Token} {es : List Expr} :
    Items ends tokens rest es → Nat
  | .none => 0
  | .some first others => max first.need others.need

def FurtherItems.need {tokens rest : List Token} {es : List Expr} :
    FurtherItems ends tokens rest es → Nat
  | .nil => 0
  | .cons _ first others => max first.need others.need

def Entries.need {tokens rest : List Token} {pairs : List (Expr × Expr)} :
    Entries ends tokens rest pairs → Nat
  | .none => 0
  | .some key _ value others => max (max key.need value.need) others.need

def FurtherEntries.need {tokens rest : List Token}
    {pairs : List (Expr × Expr)} :
    FurtherEntries ends tokens rest pairs → Nat
  | .nil => 0
  | .cons _ key _ value others => max (max key.need value.need) others.need

def Clause.need {tokens rest : List Token} {s : Statement} :
    Clause ends tokens rest s → Nat
  | .binding _ _ _ value => value.need
  | .returning _ value => value.need
  | .expression value => value.need

def Sentences.need {braced : Bool} {tokens rest : List Token}
    {ss : List Statement} :
    Sentences ends braced tokens rest ss → Nat
  | .closed _ => 0
  | .ended => 0
  | .terminated first _ others => max first.need others.need
  | .bare first _ others => max first.need others.need

end

namespace Parser

variable {token : Token} {tokens' : List Token} {strength : Precedence}
  {levels need need' folds : Nat}

/-- With this many levels, the parser either reports nesting or comes to the
point where `e` has been read and may be extended. -/
def Reaches (levels : Nat) (strength : Precedence) (need folds : Nat)
    (tokens : List Token) (e : Expr) (rest : List Token) : Prop :=
  ∀ cursor : Cursor, cursor.At tokens →
    (∃ left after, levels = left + folds + 1 ∧ need ≤ levels ∧ after.At rest ∧
      (operand (expr levels) strength).run cursor =
        (extend left strength e).run after) ∨
    (levels < need ∧ ((operand (expr levels) strength).run cursor).TooDeep)

theorem Reaches.reads (h : Reaches levels strength need folds tokens e rest)
    (hstop : (nextKind rest).precedence.rank ≤ strength.rank) :
    (operand (expr levels) strength).Reads (levels < need) tokens e rest := by
  intro cursor hat
  rcases h cursor hat with ⟨left, after, _, henough, hafter, hrun⟩ | hdeep
  · rw [← hafter.peek_kind] at hstop
    rw [run_extend_of_le left e hstop] at hrun
    exact Or.inl ⟨Nat.not_lt.2 henough, after, hrun, hafter⟩
  · exact Or.inr hdeep

theorem reaches_primary
    (h : ∀ levels,
      (primary (expr levels) token).Reads (levels < need) tokens e rest)
    (levels : Nat) (strength : Precedence) :
    Reaches levels strength (need + 1) 0 (token :: tokens) e rest := by
  intro cursor hat
  have hstart : (operand (expr levels) strength).run cursor =
      (expr levels strength token).run cursor.advance := by
    rw [← hat.peek_eq]
    rfl
  rw [hstart]
  cases levels with
  | zero =>
      refine Or.inr ⟨Nat.succ_pos need, ?_⟩
      rw [expr]
      exact tooDeep_run cursor.advance
  | succ levels =>
      rw [expr, run_bind]
      rcases h levels cursor.advance hat.advance with
        ⟨henough, after, hrun, hafter⟩ | ⟨hshort, hdeep⟩
      · refine Or.inl ⟨levels, after, rfl, by omega, hafter, ?_⟩
        rw [hrun]
        rfl
      · exact Or.inr ⟨by omega, tooDeep_continueWith _ hdeep⟩

theorem Reaches.extended {extension : Extension} {left : Expr}
    (hleft : Reaches levels strength need folds tokens left (token :: tokens'))
    (hext : token.kind.extension? = some extension)
    (hstrength : strength.rank < token.kind.precedence.rank)
    (hpart : ∀ levels,
      (extended (expr levels) left extension).Reads (levels < need')
        tokens' e rest) :
    Reaches levels strength (max need (folds + 2 + need')) (folds + 1)
      tokens e rest := by
  intro cursor hat
  rcases hleft cursor hat with
    ⟨more, middle, hlevels, henough, hmiddle, hrun⟩ | ⟨hshort, hdeep⟩
  · rw [hrun]
    rw [← hmiddle.peek_eq] at hext hstrength
    cases more with
    | zero =>
        rw [run_extend_zero left hext hstrength]
        exact Or.inr ⟨by omega, tooDeep_run middle⟩
    | succ more =>
        rw [run_extend_succ more left hext hstrength, run_bind]
        rcases hpart more middle.advance hmiddle.advance with
          ⟨henough', after, hrun', hafter⟩ | ⟨hshort, hdeep⟩
        · refine Or.inl ⟨more, after, by omega, by omega, hafter, ?_⟩
          rw [hrun']
          rfl
        · exact Or.inr ⟨by omega, tooDeep_continueWith _ hdeep⟩
  · exact Or.inr ⟨by omega, hdeep⟩

theorem Reads.bind_max {α β : Type} {parser : Parser Diagnostic α}
    {next : α → Parser Diagnostic β} {a : α} {b : β}
    (hfirst : parser.Reads (levels < need) tokens a tokens')
    (hnext : (next a).Reads (levels < need') tokens' b rest) :
    (parser >>= next).Reads (levels < max need need') tokens b rest :=
  (hfirst.bind hnext).congr (by omega)

theorem reaches_leaf (h : ∀ expr, primary expr token = pure e)
    (rest : List Token) (levels : Nat) (strength : Precedence) :
    Reaches levels strength 1 0 (token :: rest) e rest := by
  refine reaches_primary (fun levels => ?_) levels strength
  rw [h]
  exact (reads_pure e rest).congr ⟨False.elim, Nat.not_lt_zero levels⟩

theorem reads_pair {colon : Token} {tokens'' : List Token} {key value : Expr}
    (hkey : (operand (expr levels) .lowest).Reads (levels < need) tokens key
      (colon :: tokens'))
    (hcolon : colon.kind = .colon)
    (hvalue : (operand (expr levels) .lowest).Reads (levels < need') tokens'
      value tokens'') :
    (pair (expr levels)).Reads (levels < max need need') tokens (key, value)
      tokens'' := by
  refine Reads.bind_max hkey ?_
  refine Reads.then (reads_expect hcolon _) ?_
  exact Reads.finish hvalue (reads_pure _ tokens'')

theorem reads_furtherNames {names : List String}
    (hnames : FurtherNames tokens (token :: rest) names)
    (hclose : token.kind = .rparen) :
    ∃ parameters : List Token, parameters.map Token.literal = names ∧
      (commaItems (expect .ident)).Reads False tokens parameters
      (token :: rest) := by
  generalize hend : token :: rest = after at hnames
  induction hnames with
  | nil =>
      refine ⟨[], rfl, reads_commaItems_nil ?_⟩
      simp [← hend, hclose]
  | @cons comma name tokens rest names hcomma hname others ih =>
      obtain ⟨parameters, hmap, hreads⟩ := ih hend
      refine ⟨name :: parameters, by simp [hmap], ?_⟩
      have hall :=
        reads_commaItems_cons hcomma (reads_expect hname tokens) hreads
      exact hall.congr (iff_of_eq (or_false False))

theorem reads_names {names : List String}
    (hnames : Names tokens (token :: rest) names)
    (hclose : token.kind = .rparen) :
    ∃ parameters : List Token, parameters.map Token.literal = names ∧
      (delimited .rparen .rparen (expect .ident)).Reads False tokens
        parameters rest := by
  cases hnames with
  | none => exact ⟨[], rfl, reads_delimited_nil _ hclose rest⟩
  | @some name tokens _ names hname others =>
      obtain ⟨parameters, hmap, hreads⟩ := reads_furtherNames others hclose
      refine ⟨name :: parameters, by simp [hmap], ?_⟩
      have hopen : nextKind (name :: tokens) ≠ .rparen := by simp [hname]
      have hall :
          (delimited .rparen .rparen (expect .ident)).Reads (False ∨ False)
            (name :: tokens) (name :: parameters) rest :=
        reads_delimited_cons hopen (reads_expect hname tokens) hreads rfl hclose
      exact hall.congr (iff_of_eq (or_false False))

end Parser

open Scriptlet.Parser

/-- What may stand behind an expression of a level. -/
structure Follows (level : Level) (rest : List Token) : Prop where
  le_ceiling : (nextKind rest).precedence.rank ≤ level.ceiling.rank
  ne_else : nextKind rest ≠ .elseWord

theorem Follows.tighter (h : Follows level rest) :
    Follows level.tighter rest where
  le_ceiling := Nat.le_trans h.le_ceiling level.ceiling_le_tighter
  ne_else := h.ne_else

theorem Follows.of_operator {token : Token} {op : BinaryOp}
    (hext : token.kind.extension? = some (.operator op))
    (hle : op.precedence.rank ≤ level.ceiling.rank) :
    Follows level (token :: rest) where
  le_ceiling := by
    rw [nextKind_cons, TokenKind.precedence_of_operator hext]
    exact hle
  ne_else := by
    intro helse
    rw [nextKind_cons] at helse
    rw [helse] at hext
    cases hext

/-- What may stand behind an expression that is no operand: nothing that extends
it and no `else`. -/
structure Rests (rest : List Token) : Prop where
  extension_none : (nextKind rest).extension? = none
  ne_else : nextKind rest ≠ .elseWord

namespace Rests

theorem rank_precedence (h : Rests rest) :
    (nextKind rest).precedence.rank = 0 := by
  rw [TokenKind.precedence_of_extension?_eq_none h.extension_none]
  rfl

theorem follows (h : Rests rest) (level : Level) : Follows level rest where
  le_ceiling := by
    rw [h.rank_precedence]
    exact Nat.zero_le _
  ne_else := h.ne_else

theorem of_kind {token : Token} {kind : TokenKind} (hkind : token.kind = kind)
    (hext : kind.extension? = none) (helse : kind ≠ .elseWord)
    (rest : List Token) : Rests (token :: rest) where
  extension_none := by rw [nextKind_cons, hkind, hext]
  ne_else := by rw [nextKind_cons, hkind]; exact helse

end Rests

theorem FurtherItems.rests (hrest : Rests rest) :
    FurtherItems ends tokens rest es → Rests tokens
  | .nil => hrest
  | .cons hcomma _ _ => Rests.of_kind hcomma rfl (by decide) _

theorem FurtherEntries.rests (hrest : Rests rest) :
    FurtherEntries ends tokens rest pairs → Rests tokens
  | .nil => hrest
  | .cons hcomma _ _ _ _ => Rests.of_kind hcomma rfl (by decide) _

/-- The kinds of token that close a list. -/
def TokenKind.closesList (kind : TokenKind) : Bool :=
  kind == .rparen || kind == .rbracket || kind == .rbrace

theorem TokenKind.closesList_spec {kind : TokenKind} (h : kind.closesList) :
    kind.extension? = none ∧ kind.opening? = none ∧ kind ≠ .elseWord ∧
      kind ≠ .comma := by
  revert h
  cases kind <;> decide

theorem not_closes_of_begins {kind : TokenKind} (h : kind.begins)
    (braced : Bool) : ¬ (kind = .eof ∨ (braced && kind == .rbrace) = true) := by
  obtain ⟨heof, hbrace, _, _⟩ := TokenKind.begins_spec h
  simp [heof, hbrace]

theorem Separated.extension_none (h : Separated rest) :
    (nextKind rest).extension? = none := by
  cases rest with
  | nil => rfl
  | cons token rest =>
      rcases h with hbrace | hnone
      · rw [nextKind_cons, hbrace]
        rfl
      · exact hnone

/-- Around an expression that is no operand, the parser reads it whole. -/
theorem reads_whole {levels need folds : Nat} (hrest : Rests rest)
    (h : Follows .equality rest →
      Reaches levels .lowest need folds tokens e rest) :
    (operand (expr levels) .lowest).Reads (levels < need) tokens e rest :=
  (h (hrest.follows _)).reads (Nat.le_of_eq hrest.rank_precedence)

mutual

theorem Phrase.reaches {level : Level} {tokens rest : List Token} {e : Expr}
    (levels : Nat) (strength : Precedence) :
    (phrase : Phrase Separated level tokens rest e) →
      strength.rank ≤ level.floor.rank →
      Follows level rest →
      Reaches levels strength phrase.need phrase.folds tokens e rest
  | .identifier hkind, _, _ => by
      refine reaches_leaf (fun expr => ?_) rest levels strength
      simp only [primary, hkind, TokenKind.opening?]
  | .integer hkind hvalue, _, _ => by
      refine reaches_leaf (fun expr => ?_) rest levels strength
      simp only [primary, hkind, TokenKind.opening?, hvalue]
  | .string hkind, _, _ => by
      refine reaches_leaf (fun expr => ?_) rest levels strength
      simp only [primary, hkind, TokenKind.opening?]
  | .truth hkind, _, _ => by
      refine reaches_leaf (fun expr => ?_) rest levels strength
      simp only [primary, hkind, TokenKind.opening?]
  | .falsity hkind, _, _ => by
      refine reaches_leaf (fun expr => ?_) rest levels strength
      simp only [primary, hkind, TokenKind.opening?]
  | .group hopen inner hclose, _, _ => by
      refine reaches_primary (fun levels => ?_) levels strength
      simp only [primary, hopen, TokenKind.opening?]
      have hinner := reads_whole (Rests.of_kind hclose rfl (by decide) rest)
        (inner.reaches levels .lowest (Nat.le_refl _))
      refine Reads.finish hinner ?_
      exact Reads.then (reads_expect hclose rest) (reads_pure e rest)
  | .array hopen items hclose, _, _ => by
      refine reaches_primary (fun levels => ?_) levels strength
      simp only [primary, hopen, TokenKind.opening?]
      exact Reads.finish (items.reads levels rfl hclose rfl) (reads_pure _ rest)
  | .hash hopen entries hclose, _, _ => by
      refine reaches_primary (fun levels => ?_) levels strength
      simp only [primary, hopen, TokenKind.opening?]
      exact Reads.finish (entries.reads levels rfl hclose) (reads_pure _ rest)
  | .conditional hword hopen test hclose hbrace body, _, hfollows => by
      refine reaches_primary (fun levels => ?_) levels strength
      simp only [primary, hword, TokenKind.opening?]
      have htest := reads_whole (Rests.of_kind hclose rfl (by decide) _)
        (test.reaches levels .lowest (Nat.le_refl _))
      refine Reads.then (reads_expect hopen _) ?_
      refine Reads.bind_max htest ?_
      refine Reads.then (reads_expect hclose _) ?_
      refine Reads.then (reads_expect hbrace _) ?_
      refine Reads.finish (body.reads levels) ?_
      refine Reads.then ?_ (reads_pure _ rest)
      exact Reads.then (reads_skip_of_ne hfollows.ne_else)
        (reads_pure none rest)
  | .alternative hword hopen test hclose hbrace body hword' hbrace' body',
      _, _ => by
      refine reaches_primary (fun levels => ?_) levels strength
      simp only [primary, hword, TokenKind.opening?]
      have htest := reads_whole (Rests.of_kind hclose rfl (by decide) _)
        (test.reaches levels .lowest (Nat.le_refl _))
      refine Reads.then (reads_expect hopen _) ?_
      refine Reads.bind_max htest ?_
      refine Reads.then (reads_expect hclose _) ?_
      refine Reads.then (reads_expect hbrace _) ?_
      refine Reads.bind_max (body.reads levels) ?_
      refine Reads.finish ?_ (reads_pure _ rest)
      refine Reads.then (reads_skip_of_eq hword' _) ?_
      refine Reads.then (reads_expect hbrace' _) ?_
      exact Reads.finish (body'.reads levels) (reads_pure _ rest)
  | .function hword hopen names hclose hbrace sentences, _, _ => by
      refine reaches_primary (fun levels => ?_) levels strength
      simp only [primary, hword, TokenKind.opening?]
      obtain ⟨parameters, rfl, hparameters⟩ := reads_names names hclose
      refine Reads.then (reads_expect hopen _) ?_
      refine Reads.then hparameters ?_
      refine Reads.then (reads_expect hbrace _) ?_
      exact Reads.finish (sentences.reads levels) (reads_pure _ rest)
  | .call left hopen items hclose, hfloor, _ => by
      have hext : TokenKind.lparen.extension? = some .arguments := rfl
      have hstrength : strength.rank < TokenKind.lparen.precedence.rank :=
        Nat.lt_of_le_of_lt hfloor (by decide)
      rw [← hopen] at hext hstrength
      have hleft := left.reaches levels strength hfloor
        ⟨by simp only [nextKind_cons, hopen]; decide, by simp [hopen]⟩
      refine hleft.extended hext hstrength fun levels => ?_
      exact Reads.finish (items.reads levels rfl hclose rfl) (reads_pure _ rest)
  | .index left hopen inner hclose, hfloor, _ => by
      have hext : TokenKind.lbracket.extension? = some .position := rfl
      have hstrength : strength.rank < TokenKind.lbracket.precedence.rank :=
        Nat.lt_of_le_of_lt hfloor (by decide)
      rw [← hopen] at hext hstrength
      have hleft := left.reaches levels strength hfloor
        ⟨by simp only [nextKind_cons, hopen]; decide, by simp [hopen]⟩
      refine hleft.extended hext hstrength fun levels => ?_
      have hinner := reads_whole (Rests.of_kind hclose rfl (by decide) rest)
        (inner.reaches levels .lowest (Nat.le_refl _))
      refine Reads.finish hinner ?_
      exact Reads.then (reads_expect hclose rest) (reads_pure _ rest)
  | .unary hop operand, _, hfollows => by
      refine reaches_primary (fun levels => ?_) levels strength
      simp only [primary, opening?_of_signOf? hop]
      have hoperand := operand.reaches levels .unary (Nat.le_refl _) hfollows
      exact Reads.finish (hoperand.reads hfollows.le_ceiling)
        (reads_pure _ rest)
  | @Phrase.binary _ level token _ _ _ op _ _ left hop right, hfloor,
      hfollows => by
      obtain ⟨hext, hprecedence, hlt, hle⟩ := Level.operator?_eq_some hop
      have hleft := left.reaches levels strength hfloor
        (Follows.of_operator hext
          (Nat.le_of_eq (congrArg Precedence.rank hprecedence)))
      have hstrength : strength.rank < token.kind.precedence.rank := by
        rw [TokenKind.precedence_of_operator hext, hprecedence]
        exact Nat.lt_of_le_of_lt hfloor hlt
      refine hleft.extended hext hstrength fun levels => ?_
      have hright :=
        right.reaches levels op.precedence (hprecedence ▸ hle) hfollows.tighter
      exact Reads.finish (hright.reads (hprecedence ▸ hfollows.le_ceiling))
        (reads_pure _ rest)
  | .tighter inner, hfloor, hfollows =>
      inner.reaches levels strength
        (Nat.le_trans hfloor (Level.floor_le_tighter _)) hfollows.tighter

theorem Items.reads {tokens after rest : List Token} {es : List Expr}
    {closing : Token} {close : TokenKind} (levels : Nat) :
    (items : Items Separated tokens after es) → after = closing :: rest →
      closing.kind = close → close.closesList →
      (delimited close close (operand (expr levels) .lowest)).Reads
      (levels < items.need)
        tokens es rest
  | .none, hafter, hclose, _ => by
      subst hafter
      exact (reads_delimited_nil _ hclose rest).congr
        ⟨False.elim, Nat.not_lt_zero levels⟩
  | .some first others, hafter, hclose, hcloses => by
      obtain ⟨hext, hopening, helse, hcomma⟩ :=
        TokenKind.closesList_spec hcloses
      have hrest : Rests after := hafter ▸ Rests.of_kind hclose hext helse rest
      have hfirst := reads_whole (others.rests hrest)
        (first.reaches levels .lowest (Nat.le_refl _))
      have hopens : nextKind tokens ≠ close := by
        intro heq
        have := first.opens
        simp [heq, hopening] at this
      have hothers :=
        others.reads levels hrest (by simp [hafter, hclose, hcomma])
      refine Reads.congr
        (reads_delimited_cons hopens hfirst hothers hafter hclose) ?_
      rw [Items.need]
      omega

theorem FurtherItems.reads {tokens rest : List Token} {es : List Expr}
    (levels : Nat) :
    (items : FurtherItems Separated tokens rest es) → Rests rest →
      nextKind rest ≠ .comma →
      (commaItems (operand (expr levels) .lowest)).Reads (levels < items.need)
        tokens es rest
  | .nil, _, hcomma =>
      (reads_commaItems_nil hcomma).congr ⟨False.elim, Nat.not_lt_zero levels⟩
  | .cons hcomma first others, hrest, hend => by
      have hfirst := reads_whole (others.rests hrest)
        (first.reaches levels .lowest (Nat.le_refl _))
      have hothers := others.reads levels hrest hend
      refine Reads.congr (reads_commaItems_cons hcomma hfirst hothers) ?_
      rw [FurtherItems.need]
      omega

theorem Entries.reads {tokens after rest : List Token}
    {pairs : List (Expr × Expr)} {closing : Token} (levels : Nat) :
    (entries : Entries Separated tokens after pairs) → after = closing :: rest →
      closing.kind = .rbrace →
      (delimited .rbrace .comma (pair (expr levels))).Reads
      (levels < entries.need)
        tokens pairs rest
  | .none, hafter, hclose => by
      subst hafter
      exact (reads_delimited_nil _ hclose rest).congr
        ⟨False.elim, Nat.not_lt_zero levels⟩
  | .some key hcolon value others, hafter, hclose => by
      have hrest : Rests after :=
        hafter ▸ Rests.of_kind hclose rfl (by decide) rest
      have hpair := reads_pair
        (reads_whole (Rests.of_kind hcolon rfl (by decide) _)
          (key.reaches levels .lowest (Nat.le_refl _))) hcolon
        (reads_whole (others.rests hrest)
          (value.reaches levels .lowest (Nat.le_refl _)))
      have hopens : nextKind tokens ≠ .rbrace := by
        intro heq
        have := key.opens
        simp [heq, TokenKind.opening?] at this
      have hothers := others.reads levels hrest (by simp [hafter, hclose])
      refine Reads.congr
        (reads_delimited_cons hopens hpair hothers hafter hclose) ?_
      rw [Entries.need]
      omega

theorem FurtherEntries.reads {tokens rest : List Token}
    {pairs : List (Expr × Expr)} (levels : Nat) :
    (entries : FurtherEntries Separated tokens rest pairs) → Rests rest →
      nextKind rest ≠ .comma →
      (commaItems (pair (expr levels))).Reads (levels < entries.need)
        tokens pairs rest
  | .nil, _, hcomma =>
      (reads_commaItems_nil hcomma).congr ⟨False.elim, Nat.not_lt_zero levels⟩
  | .cons hcomma key hcolon value others, hrest, hend => by
      have hpair := reads_pair
        (reads_whole (Rests.of_kind hcolon rfl (by decide) _)
          (key.reaches levels .lowest (Nat.le_refl _))) hcolon
        (reads_whole (others.rests hrest)
          (value.reaches levels .lowest (Nat.le_refl _)))
      have hothers := others.reads levels hrest hend
      refine Reads.congr (reads_commaItems_cons hcomma hpair hothers) ?_
      rw [FurtherEntries.need]
      omega

theorem Clause.reads {tokens after rest : List Token} {s : Statement}
    {skipped : Bool} (levels : Nat) :
    (clause : Clause Separated tokens after s) → Rests after →
      (skip .semicolon : Parser Diagnostic Bool).Reads False after
        skipped rest →
      (fromNext (statement (expr levels))).Reads (levels < clause.need)
        tokens s rest
  | .binding hword hname hsign value, hrest, hskip => by
      refine Reads.then (reads_next _ _) ?_
      rw [statement, if_pos hword]
      refine Reads.then (reads_expect hname _) ?_
      refine Reads.then (reads_expect hsign _) ?_
      refine Reads.finish
        (reads_whole hrest (value.reaches levels .lowest (Nat.le_refl _))) ?_
      exact Reads.then (reads_pure _ after)
        (Reads.then hskip (reads_pure _ rest))
  | .returning hword value, hrest, hskip => by
      refine Reads.then (reads_next _ _) ?_
      rw [statement, if_neg (by simp [hword]), if_pos hword]
      refine Reads.finish
        (reads_whole hrest (value.reaches levels .lowest (Nat.le_refl _))) ?_
      exact Reads.then (reads_pure _ after)
        (Reads.then hskip (reads_pure _ rest))
  | .expression value, hrest, hskip => by
      -- The first token belongs to the expression, so it is read by `operand`.
      have hvalue :=
        reads_whole hrest (value.reaches levels .lowest (Nat.le_refl _))
      have hall : (operand (expr levels) .lowest >>= fun e => do
            let read ← pure (Statement.expression e)
            let _ ← skip .semicolon
            pure read).Reads (levels < value.need) tokens _ rest :=
        Reads.finish hvalue
          (Reads.then (reads_pure _ after)
            (Reads.then hskip (reads_pure _ rest)))
      intro cursor hat
      have hopens := value.opens
      rw [← hat.peek_kind] at hopens
      have hlet : cursor.peek.kind ≠ .letWord := by
        intro hkind
        simp [hkind, TokenKind.opening?] at hopens
      have hreturn : cursor.peek.kind ≠ .returnWord := by
        intro hkind
        simp [hkind, TokenKind.opening?] at hopens
      rw [run_fromNext, statement, if_neg hlet, if_neg hreturn]
      exact hall cursor hat

theorem Sentences.reads {braced : Bool} {tokens rest : List Token}
    {ss : List Statement} (levels : Nat) :
    (sentences : Sentences Separated braced tokens rest ss) →
      (repeated (fun kind => braced && kind == .rbrace)
        (statement (expr levels))).Reads (levels < sentences.need)
          tokens ss rest
  | .closed hclose => by
      refine Reads.congr (reads_repeated_nil ?_)
        ⟨False.elim, Nat.not_lt_zero levels⟩
      simp [hclose]
  | .ended => by
      refine Reads.congr (reads_repeated_nil ?_)
        ⟨False.elim, Nat.not_lt_zero levels⟩
      exact Or.inl rfl
  | .terminated first hsemicolon others => by
      have hfirst :=
        first.reads levels (Rests.of_kind hsemicolon rfl (by decide) _)
          (reads_skip_of_eq hsemicolon _)
      refine Reads.congr
        (reads_repeated_cons ?_ hfirst (others.reads levels)) ?_
      · exact not_closes_of_begins first.begins braced
      · rw [Sentences.need]
        omega
  | .bare first hends others => by
      obtain ⟨helse, hsemicolon⟩ := others.heads
      have hfirst := first.reads levels ⟨hends.extension_none, helse⟩
        (reads_skip_of_ne hsemicolon)
      refine Reads.congr
        (reads_repeated_cons ?_ hfirst (others.reads levels)) ?_
      · exact not_closes_of_begins first.begins braced
      · rw [Sentences.need]
        omega

end

namespace Parsed

/-- Whether the source is reported to nest too deep. -/
def TooDeep (parsed : Parsed) : Prop :=
  ∃ diagnostic ∈ parsed.diagnostics,
    diagnostic.problem = .nestingTooDeep maxNesting

/-- A derived program is read exactly if the levels suffice. -/
theorem ofStream_of_sentences {stream : TokenStream} {program : Program}
    (hat : (Cursor.ofStream stream).At tokens)
    (sentences : Sentences Separated false tokens [] program) :
    (sentences.need ≤ maxNesting ∧ ofStream stream = ⟨program, []⟩) ∨
      (maxNesting < sentences.need ∧ (ofStream stream).TooDeep) := by
  rcases sentences.reads maxNesting (.ofStream stream) hat with
    ⟨henough, after, hrun, _⟩ | ⟨hshort, hdeep⟩
  · refine Or.inl ⟨Nat.le_of_not_lt henough, ?_⟩
    injection hrun with hresult hdiagnostics _
    injection hresult with hprogram
    rw [← hprogram, ← hdiagnostics]
    rfl
  · exact Or.inr ⟨hshort, hdeep⟩

/-- The parser accepts what the grammar derives, and builds its tree.  The first
part needs no condition on how statements are separated; in the second one a
statement without a semicolon is not followed by anything that would extend it.
A derivation is read whole if it takes no more levels than there are, and only
if it takes more does the parser report that expressions nest too deep. -/
theorem ofTokens_accepts_grammar (body trailing : List Token)
    (hbody : ∀ token ∈ body, token.kind ≠ .eof)
    (htrailing : ∀ token ∈ trailing, token.kind = .eof) :
    ((ofTokens (body ++ trailing)).diagnostics = [] →
        Derives (fun _ => True) body (ofTokens (body ++ trailing)).program) ∧
      ∀ program (sentences : Sentences Separated false body [] program),
        (sentences.need ≤ maxNesting →
          ofTokens (body ++ trailing) = ⟨program, []⟩) ∧
        (maxNesting < sentences.need →
          (ofTokens (body ++ trailing)).TooDeep) := by
  have hat : (Cursor.ofStream (.ofTokens (body ++ trailing))).At body :=
    ⟨trailing, rfl, hbody, htrailing⟩
  constructor
  · intro hquiet
    exact derives_of_quiet (fun _ _ => trivial) hat hquiet
  · intro program sentences
    rcases ofStream_of_sentences hat sentences with
      ⟨henough, hparsed⟩ | ⟨hshort, hdeep⟩
    · exact ⟨fun _ => hparsed,
        fun hshort => absurd hshort (Nat.not_lt.2 henough)⟩
    · exact ⟨fun henough => absurd hshort (Nat.not_lt.2 henough),
        fun _ => hdeep⟩

/-- `return a` is derived with one level, so it is read. -/
theorem ofTokens_accepts_return :
    let body : List Token := [⟨.returnWord, "return", 1⟩, ⟨.ident, "a", 1⟩]
    let stop : List Token := [⟨.eof, "", 1⟩]
    (∀ token ∈ body, token.kind ≠ .eof) ∧
      (∀ token ∈ stop, token.kind = .eof) ∧
      Derives Separated body [.returning (.identifier "a")] ∧
      ofTokens (body ++ stop) = ⟨[.returning (.identifier "a")], []⟩ := by
  intro body stop
  have hbody : ∀ token ∈ body, token.kind ≠ .eof := by decide
  have hstop : ∀ token ∈ stop, token.kind = .eof := by decide
  have hseparated : Separated [] := trivial
  let phrase : Phrase Separated .equality body.tail [] (.identifier "a") :=
    .tighter (.tighter (.tighter (.tighter (.tighter (.identifier rfl)))))
  let sentences :
      Sentences Separated false body [] [.returning (.identifier "a")] :=
    .bare (.returning rfl phrase) hseparated .ended
  have hneed : sentences.need ≤ maxNesting := Nat.le_of_ble_eq_true rfl
  obtain ⟨-, haccepts⟩ := ofTokens_accepts_grammar body stop hbody hstop
  exact ⟨hbody, hstop, ⟨sentences⟩, (haccepts _ sentences).1 hneed⟩

end Parsed

end Scriptlet
