/-
Two runs of the parser side by side.  A pairing says which positions in two
token streams belong together.  If it fits the looking at a token and the
reading of one, then from positions that belong together everything is read
alike: the same trees, the same problems, and positions that belong together
again.

A pairing may come to an end before the streams do.  Where the first run has got
to a position that is `lost`, nothing is said about the second run any more.
-/
import Mathlib.Data.List.Forall2
import Scriptlet.Proofs.Parser.Reads

namespace Scriptlet

/-- Which positions of two runs belong together, and which lines. -/
structure Pairing where
  cursors : Cursor → Cursor → Prop
  lines : Nat → Nat → Prop
  lost : Cursor → Prop

namespace Pairing

variable {R : Pairing} {α β : Type} {good : α → α → Prop}
  {better : β → β → Prop}

/-- The same token up to its line. -/
structure Tokens (R : Pairing) (token token' : Token) : Prop where
  kind : token.kind = token'.kind
  literal : token.literal = token'.literal
  line : R.lines token.line token'.line

/-- The same problem up to its line. -/
structure Diagnostics (R : Pairing) (diagnostic diagnostic' : Diagnostic) :
    Prop where
  problem : diagnostic.problem = diagnostic'.problem
  line : R.lines diagnostic.line diagnostic'.line

inductive Results (R : Pairing) (good : α → α → Prop) :
    Except Diagnostic α → Except Diagnostic α → Prop
  | ok {a a' : α} (h : good a a') : Results R good (.ok a) (.ok a')
  | error {e e' : Diagnostic} (h : R.Diagnostics e e') :
      Results R good (.error e) (.error e')

/-- Outcomes with related results, the same problems and positions that belong
together. -/
structure Outcomes (R : Pairing) (good : α → α → Prop)
    (outcome outcome' : Outcome Diagnostic α) : Prop where
  result : R.Results good outcome.result outcome'.result
  diagnostics :
    List.Forall₂ R.Diagnostics outcome.diagnostics outcome'.diagnostics
  rest : R.cursors outcome.rest outcome'.rest

section Outcomes

variable {outcome outcome' : Outcome Diagnostic α}

theorem Results.toOption_eq {result result' : Except Diagnostic α}
    (h : R.Results Eq result result') : result.toOption = result'.toOption := by
  cases h with
  | ok h => rw [h]
  | error => rfl

theorem Outcomes.reported (h : R.Outcomes good outcome outcome') :
    List.Forall₂ R.Diagnostics outcome.reported outcome'.reported := by
  obtain ⟨result, diagnostics, rest⟩ := outcome
  obtain ⟨result', diagnostics', rest'⟩ := outcome'
  cases h.result with
  | ok => exact h.diagnostics
  | error he => exact List.rel_append h.diagnostics (.cons he .nil)

theorem Outcomes.after (h : R.Outcomes good outcome outcome')
    {earlier earlier' : List Diagnostic}
    (hearlier : List.Forall₂ R.Diagnostics earlier earlier') :
    R.Outcomes good (outcome.after earlier) (outcome'.after earlier') :=
  ⟨h.result, List.rel_append hearlier h.diagnostics, h.rest⟩

theorem Outcomes.map (h : R.Outcomes good outcome outcome') {f f' : α → β}
    (hf : ∀ a a', good a a' → better (f a) (f' a')) :
    R.Outcomes better (outcome.map f) (outcome'.map f') := by
  obtain ⟨result, diagnostics, rest⟩ := outcome
  obtain ⟨result', diagnostics', rest'⟩ := outcome'
  refine ⟨?_, h.diagnostics, h.rest⟩
  cases h.result with
  | ok ha => exact .ok (hf _ _ ha)
  | error he => exact .error he

end Outcomes

/-- The first run got lost, or both ended alike. -/
def Ends (R : Pairing) (good : α → α → Prop)
    (outcome outcome' : Outcome Diagnostic α) : Prop :=
  R.lost outcome.rest ∨ R.Outcomes good outcome outcome'

/-- From positions that belong together, two parsers end alike. -/
def Follows (R : Pairing) (good : α → α → Prop)
    (parser parser' : Parser Diagnostic α) : Prop :=
  ∀ ⦃cursor cursor' : Cursor⦄, R.cursors cursor cursor' →
    R.Ends good (parser.run cursor) (parser'.run cursor')

/-- A pairing fits the single steps of a run. -/
structure Lawful (R : Pairing) : Prop where
  peek {cursor cursor' : Cursor} (h : R.cursors cursor cursor') :
    R.Tokens cursor.peek cursor'.peek
  line {cursor cursor' : Cursor} (h : R.cursors cursor cursor') :
    R.lines cursor.line cursor'.line
  advance {cursor cursor' : Cursor} (h : R.cursors cursor cursor') :
    R.lost cursor.advance ∨ R.cursors cursor.advance cursor'.advance
  /-- What is lost stays so. -/
  lost {cursor later : Cursor} (h : R.lost cursor)
    (hle : later.remaining ≤ cursor.remaining) : R.lost later

theorem Ends.continueWith {outcome outcome' : Outcome Diagnostic α}
    {next next' : α → Parser Diagnostic β} (hR : R.Lawful)
    (h : R.Ends good outcome outcome')
    (hnext : ∀ a a', good a a' → R.cursors outcome.rest outcome'.rest →
      R.Ends better ((next a).run outcome.rest)
        ((next' a').run outcome'.rest)) :
    R.Ends better (Parser.continueWith next outcome)
      (Parser.continueWith next' outcome') := by
  obtain ⟨result, diagnostics, rest⟩ := outcome
  obtain ⟨result', diagnostics', rest'⟩ := outcome'
  rcases h with hlost | ⟨hresult, hdiagnostics, hrest⟩
  · left
    cases result with
    | error e => exact hlost
    | ok a => exact hR.lost hlost ((next a).remaining_le rest)
  · cases hresult with
    | error he => exact Or.inr ⟨.error he, hdiagnostics, hrest⟩
    | @ok a a' ha =>
        rcases hnext a a' ha hrest with hlost | houtcomes
        · exact Or.inl hlost
        · exact Or.inr (houtcomes.after hdiagnostics)

theorem follows_pure {a a' : α} (h : good a a') :
    R.Follows good (pure a) (pure a') :=
  fun _ _ hcursors => Or.inr ⟨.ok h, .nil, hcursors⟩

theorem follows_fail {e e' : Diagnostic} (h : R.Diagnostics e e') :
    R.Follows good (Parser.fail e) (Parser.fail e') :=
  fun _ _ hcursors => Or.inr ⟨.error h, .nil, hcursors⟩

theorem Follows.bind {first first' : Parser Diagnostic α}
    {next next' : α → Parser Diagnostic β} (h : R.Follows good first first')
    (hR : R.Lawful)
    (hnext : ∀ a a', good a a' → R.Follows better (next a) (next' a')) :
    R.Follows better (first >>= next) (first' >>= next') :=
  fun _ _ hcursors => (h hcursors).continueWith hR fun a a' ha =>
    (hnext a a' ha ·)

namespace Lawful

variable {item item' : Parser Diagnostic α}

theorem follows_peek (hR : R.Lawful) :
    R.Follows R.Tokens Parser.peek Parser.peek :=
  fun _ _ hcursors => Or.inr ⟨.ok (hR.peek hcursors), .nil, hcursors⟩

theorem follows_next (hR : R.Lawful) :
    R.Follows R.Tokens Parser.next Parser.next :=
  fun _ _ hcursors =>
    (hR.advance hcursors).imp_right (⟨.ok (hR.peek hcursors), .nil, ·⟩)

theorem follows_reject (hR : R.Lawful) (problem : Problem) :
    R.Follows good (Parser.reject problem) (Parser.reject problem) :=
  fun _ _ hcursors => Or.inr ⟨.error ⟨rfl, hR.line hcursors⟩, .nil, hcursors⟩

theorem follows_skip (hR : R.Lawful) (kind : TokenKind) :
    R.Follows Eq (Parser.skip kind) (Parser.skip kind) := by
  refine hR.follows_peek.bind hR fun token token' htoken => ?_
  rw [htoken.kind]
  split
  · exact hR.follows_next.bind hR fun _ _ _ => follows_pure rfl
  · exact follows_pure rfl

theorem follows_expect (hR : R.Lawful) (kind : TokenKind) :
    R.Follows R.Tokens (Parser.expect kind) (Parser.expect kind) := by
  refine hR.follows_peek.bind hR fun token token' htoken => ?_
  rw [htoken.kind]
  split
  · exact hR.follows_next
  · exact follows_fail ⟨rfl, htoken.line⟩

theorem follows_commaItems (hR : R.Lawful) (hitem : R.Follows good item item') :
    R.Follows (List.Forall₂ good) (Parser.commaItems item)
      (Parser.commaItems item') := by
  intro cursor cursor' hcursors
  -- Every item has a comma in front of it, so fewer tokens are left behind it.
  induction hremaining : cursor.remaining
    using Nat.strongRecOn generalizing cursor cursor' with
  | ind remaining ih =>
      have hkind := (hR.peek hcursors).kind
      by_cases hcomma : cursor.peek.kind = .comma
      · rw [Parser.run_commaItems_of_comma item hcomma,
          Parser.run_commaItems_of_comma item' (hkind ▸ hcomma)]
        have hless : cursor.advance.remaining < remaining :=
          hremaining ▸ Cursor.remaining_advance_lt_of_kind_ne
            (by rw [hcomma]; decide)
        rcases hR.advance hcursors with hlost | hadvanced
        · exact Or.inl (hR.lost hlost (Parser.remaining_le _ cursor.advance))
        · refine (hitem hadvanced).continueWith hR fun a a' ha hrest => ?_
          have hfewer :=
            Nat.lt_of_le_of_lt (item.remaining_le cursor.advance) hless
          refine (ih _ hfewer hrest rfl).continueWith hR
            fun others others' hothers hlast => ?_
          exact follows_pure (.cons ha hothers) hlast
      · rw [Parser.run_commaItems_of_ne item hcomma,
          Parser.run_commaItems_of_ne item' (hkind ▸ hcomma)]
        exact Or.inr ⟨.ok .nil, .nil, hcursors⟩

theorem follows_delimited (hR : R.Lawful) (close wanted : TokenKind)
    (hitem : R.Follows good item item') :
    R.Follows (List.Forall₂ good) (Parser.delimited close wanted item)
      (Parser.delimited close wanted item') := by
  refine (hR.follows_skip close).bind hR fun skipped _ hskipped => ?_
  subst hskipped
  cases skipped with
  | true => exact follows_pure .nil
  | false =>
      refine hitem.bind hR fun first first' hfirst => ?_
      refine (hR.follows_commaItems hitem).bind hR
        fun others others' hothers => ?_
      refine hR.follows_peek.bind hR fun token token' htoken => ?_
      rw [htoken.kind]
      split
      · exact hR.follows_next.bind hR fun _ _ _ =>
          follows_pure (.cons hfirst hothers)
      · exact follows_fail ⟨rfl, htoken.line⟩

theorem follows_fromNext (hR : R.Lawful)
    {item item' : Token → Parser Diagnostic α}
    (hitem : ∀ first first', R.Tokens first first' →
      R.Follows good (item first) (item' first')) :
    R.Follows good (Parser.fromNext item) (Parser.fromNext item') :=
  hR.follows_next.bind hR hitem

theorem follows_repeated (hR : R.Lawful) (closes : TokenKind → Bool)
    {item item' : Token → Parser Diagnostic α}
    (hitem : ∀ first first', R.Tokens first first' →
      R.Follows Eq (item first) (item' first')) :
    R.Follows Eq (Parser.repeated closes item)
      (Parser.repeated closes item') := by
  intro cursor cursor' hcursors
  -- Every item takes its first token, so fewer tokens are left behind it.
  induction hremaining : cursor.remaining
    using Nat.strongRecOn generalizing cursor cursor' with
  | ind remaining ih =>
      have hkind := (hR.peek hcursors).kind
      by_cases hcloses : cursor.peek.kind = .eof ∨ closes cursor.peek.kind
      · rw [Parser.run_repeated_of_closes item hcloses,
          Parser.run_repeated_of_closes item' (hkind ▸ hcloses)]
        exact (hR.advance hcursors).imp_right (⟨.ok rfl, .nil, ·⟩)
      · rw [Parser.run_repeated_of_open item hcloses,
          Parser.run_repeated_of_open item' (hkind ▸ hcloses)]
        have hless := Parser.remaining_fromNext_lt item fun heof =>
          hcloses (Or.inl heof)
        rw [hremaining] at hless
        rcases hR.follows_fromNext hitem hcursors with hlost | hfirst
        · exact Or.inl (hR.lost hlost (Parser.remaining_le _ _))
        · rcases ih _ hless hfirst.rest rfl with hlost | hothers
          · exact Or.inl hlost
          · right
            refine (hothers.map ?_).after hfirst.reported
            rintro others _ rfl
            rw [hfirst.result.toOption_eq]

end Lawful

section Grammar

open Scriptlet.Parser

variable {read : ExprParser}

/-- Expressions are read alike from first tokens that are the same up to their
lines. -/
def Respects (R : Pairing) (read : ExprParser) : Prop :=
  ∀ (strength : Precedence) (first first' : Token), R.Tokens first first' →
    R.Follows Eq (read strength first) (read strength first')

namespace Respects

theorem operand (h : R.Respects read) (hR : R.Lawful) (strength : Precedence) :
    R.Follows Eq (operand read strength) (operand read strength) :=
  hR.follows_next.bind hR (h strength)

theorem clause (h : R.Respects read) (hR : R.Lawful) {first first' : Token}
    (hfirst : R.Tokens first first') :
    R.Follows Eq (clause read first) (clause read first') := by
  rw [Parser.clause, Parser.clause, hfirst.kind]
  split
  · refine (hR.follows_expect .ident).bind hR fun name name' hname => ?_
    refine (hR.follows_expect .assign).bind hR fun _ _ _ => ?_
    refine (h.operand hR .lowest).bind hR ?_
    rintro value _ rfl
    rw [hname.literal]
    exact follows_pure rfl
  · split
    · refine (h.operand hR .lowest).bind hR ?_
      rintro value _ rfl
      exact follows_pure rfl
    · refine (h .lowest first first' hfirst).bind hR ?_
      rintro value _ rfl
      exact follows_pure rfl

theorem statement (h : R.Respects read) (hR : R.Lawful) (first first' : Token)
    (hfirst : R.Tokens first first') :
    R.Follows Eq (statement read first) (statement read first') := by
  rw [statement_eq, statement_eq]
  refine (h.clause hR hfirst).bind hR ?_
  rintro s _ rfl
  exact (hR.follows_skip .semicolon).bind hR fun _ _ _ => follows_pure rfl

theorem block (h : R.Respects read) (hR : R.Lawful) :
    R.Follows Eq (block read) (block read) :=
  hR.follows_repeated (· == .rbrace) (h.statement hR)

theorem pair (h : R.Respects read) (hR : R.Lawful) :
    R.Follows Eq (pair read) (pair read) := by
  refine (h.operand hR .lowest).bind hR ?_
  rintro key _ rfl
  refine (hR.follows_expect .colon).bind hR fun _ _ _ => ?_
  refine (h.operand hR .lowest).bind hR ?_
  rintro value _ rfl
  exact follows_pure rfl

theorem elseBranch (h : R.Respects read) (hR : R.Lawful) :
    R.Follows Eq (elseBranch read) (elseBranch read) := by
  refine (hR.follows_skip .elseWord).bind hR ?_
  rintro skipped _ rfl
  cases skipped with
  | false => exact follows_pure rfl
  | true =>
      refine (hR.follows_expect .lbrace).bind hR fun _ _ _ => ?_
      refine (h.block hR).bind hR ?_
      rintro body _ rfl
      exact follows_pure rfl

/-- Items between commas, where an item is read as the very same one. -/
theorem delimited (hR : R.Lawful) (close wanted : TokenKind)
    {item : Parser Diagnostic α} (hitem : R.Follows Eq item item) :
    R.Follows Eq (delimited close wanted item)
      (delimited close wanted item) := by
  have hitems := hR.follows_delimited close wanted hitem
  rwa [List.forall₂_eq_eq_eq] at hitems

theorem primary (h : R.Respects read) (hR : R.Lawful) (first first' : Token)
    (hfirst : R.Tokens first first') :
    R.Follows Eq (primary read first) (primary read first') := by
  rw [Parser.primary, Parser.primary, hfirst.kind, hfirst.literal]
  cases first'.kind.opening? with
  | none => exact hR.follows_reject _
  | some opening =>
      cases opening with
      | identifier => exact follows_pure rfl
      | integer =>
          cases Integer.ofText? first'.literal with
          | some value => exact follows_pure rfl
          | none => exact hR.follows_reject _
      | string => exact follows_pure rfl
      | boolean value => exact follows_pure rfl
      | operator op =>
          refine (h.operand hR .unary).bind hR ?_
          rintro operand _ rfl
          exact follows_pure rfl
      | group =>
          refine (h.operand hR .lowest).bind hR ?_
          rintro inner _ rfl
          exact (hR.follows_expect .rparen).bind hR fun _ _ _ =>
            follows_pure rfl
      | array =>
          refine (delimited hR .rbracket .rbracket (h.operand hR .lowest)).bind
            hR ?_
          rintro elements _ rfl
          exact follows_pure rfl
      | hash =>
          refine (delimited hR .rbrace .comma (h.pair hR)).bind hR ?_
          rintro pairs _ rfl
          exact follows_pure rfl
      | conditional =>
          refine (hR.follows_expect .lparen).bind hR fun _ _ _ => ?_
          refine (h.operand hR .lowest).bind hR ?_
          rintro condition _ rfl
          refine (hR.follows_expect .rparen).bind hR fun _ _ _ => ?_
          refine (hR.follows_expect .lbrace).bind hR fun _ _ _ => ?_
          refine (h.block hR).bind hR ?_
          rintro consequence _ rfl
          refine (h.elseBranch hR).bind hR ?_
          rintro alternative _ rfl
          exact follows_pure rfl
      | function =>
          refine (hR.follows_expect .lparen).bind hR fun _ _ _ => ?_
          have hnames :=
            hR.follows_delimited .rparen .rparen (hR.follows_expect .ident)
          refine hnames.bind hR fun names names' hnames => ?_
          refine (hR.follows_expect .lbrace).bind hR fun _ _ _ => ?_
          have hliterals : names.map Token.literal =
              names'.map Token.literal := by
            induction hnames with
            | nil => rfl
            | cons hname _ ih =>
                rw [List.map_cons, List.map_cons, hname.literal, ih]
          rw [hliterals]
          refine (h.block hR).bind hR ?_
          rintro body _ rfl
          exact follows_pure rfl
      | illegal => exact hR.follows_reject _

theorem extended (h : R.Respects read) (hR : R.Lawful) (left : Expr)
    (extension : Extension) :
    R.Follows Eq (extended read left extension)
      (extended read left extension) := by
  cases extension with
  | operator op =>
      refine (h.operand hR op.precedence).bind hR ?_
      rintro right _ rfl
      exact follows_pure rfl
  | arguments =>
      refine (delimited hR .rparen .rparen (h.operand hR .lowest)).bind hR ?_
      rintro arguments _ rfl
      exact follows_pure rfl
  | position =>
      refine (h.operand hR .lowest).bind hR ?_
      rintro position _ rfl
      exact (hR.follows_expect .rbracket).bind hR fun _ _ _ => follows_pure rfl

end Respects

theorem Lawful.follows_extensionAbove (hR : R.Lawful) (strength : Precedence) :
    R.Follows Eq (extensionAbove strength) (extensionAbove strength) := by
  refine hR.follows_peek.bind hR fun token token' htoken => ?_
  rw [htoken.kind]
  exact follows_pure rfl

/-- Folding extensions into an expression goes on alike, where the levels left
are enough for reading alike. -/
theorem Lawful.follows_extend (hR : R.Lawful) {levels : Nat}
    (hread : ∀ fewer < levels, R.Respects (expr fewer)) (strength : Precedence)
    (left : Expr) :
    R.Follows Eq (extend levels strength left)
      (extend levels strength left) := by
  induction levels generalizing left with
  | zero =>
      rw [extend]
      refine (hR.follows_extensionAbove strength).bind hR ?_
      rintro extension _ rfl
      cases extension with
      | none => exact follows_pure rfl
      | some extension => exact hR.follows_reject _
  | succ levels ih =>
      rw [extend]
      refine (hR.follows_extensionAbove strength).bind hR ?_
      rintro extension _ rfl
      cases extension with
      | none => exact follows_pure rfl
      | some extension =>
          refine hR.follows_next.bind hR fun _ _ _ => ?_
          refine ((hread levels (Nat.lt_succ_self levels)).extended hR left
            extension).bind hR ?_
          rintro longer _ rfl
          exact ih (fun fewer hfewer => hread fewer (Nat.lt_succ_of_lt hfewer))
            longer

theorem Lawful.respects_expr (hR : R.Lawful) (levels : Nat) :
    R.Respects (expr levels) := by
  induction levels using Nat.strongRecOn with
  | ind levels ih =>
      intro strength first first' hfirst
      cases levels with
      | zero =>
          rw [expr, expr]
          exact hR.follows_reject _
      | succ levels =>
          rw [expr, expr]
          refine ((ih levels (Nat.lt_succ_self levels)).primary hR first first'
            hfirst).bind hR ?_
          rintro left _ rfl
          exact hR.follows_extend
            (fun fewer hfewer => ih fewer (Nat.lt_succ_of_lt hfewer)) _ left

/-- Streams whose starts belong together are read as the same program, with the
same problems in the same order. -/
theorem Lawful.ofStream (hR : R.Lawful) (hnever : ∀ cursor, ¬ R.lost cursor)
    {stream stream' : TokenStream}
    (h : R.cursors (.ofStream stream) (.ofStream stream')) :
    (Parsed.ofStream stream).program = (Parsed.ofStream stream').program ∧
      List.Forall₂ R.Diagnostics (Parsed.ofStream stream).diagnostics
        (Parsed.ofStream stream').diagnostics := by
  have hfollows := hR.follows_repeated (fun _ => false)
    ((hR.respects_expr maxNesting).statement hR)
  rcases hfollows h with hlost | ⟨hresult, hdiagnostics, _⟩
  · exact absurd hlost (hnever _)
  · have hprogram : some (Parsed.ofStream stream).program =
        some (Parsed.ofStream stream').program := hresult.toOption_eq
    exact ⟨Option.some.inj hprogram, hdiagnostics⟩

end Grammar

end Pairing

end Scriptlet
