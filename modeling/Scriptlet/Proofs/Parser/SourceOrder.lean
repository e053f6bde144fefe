/-
The order of diagnostics.  An error blames the token read last or the next one.
Whatever is recorded before it blames a token in front of these, and whoever
goes on after it reads the next token first.  So the lines of diagnostics ascend
as the lines of tokens do, in blocks as well as at the top.
-/
import Scriptlet.Proofs.Parser.Finished

namespace Scriptlet

namespace Cursor

variable {cursor : Cursor}

/-- The lines of the tokens still to be read and of the end of input. -/
def ahead (cursor : Cursor) : List Nat :=
  cursor.unread.map Token.line ++ [cursor.endLine]

/-- The line of the token read last and the lines ahead. -/
def lines (cursor : Cursor) : List Nat := cursor.line :: cursor.ahead

/-- No line is above one that comes before it. -/
def Ascends (cursor : Cursor) : Prop := cursor.lines.Pairwise (· ≤ ·)

theorem exists_ahead (cursor : Cursor) :
    ∃ later, cursor.ahead = cursor.peek.line :: later := by
  cases hunread : cursor.unread with
  | nil => exact ⟨[], by simp [ahead, peek, hunread]⟩
  | cons token tokens => exact ⟨_, by simp [ahead, peek, hunread]; rfl⟩

theorem peek_mem_ahead (cursor : Cursor) : cursor.peek.line ∈ cursor.ahead := by
  obtain ⟨later, hahead⟩ := cursor.exists_ahead
  rw [hahead]
  exact List.mem_cons_self

theorem lines_advance_of_cons {token : Token} {tokens : List Token}
    (h : cursor.unread = token :: tokens) :
    cursor.advance.lines = cursor.ahead := by
  simp [lines, ahead, advance, peek, h]

/-- The end of input is reached again and again. -/
theorem lines_advance_of_nil (h : cursor.unread = []) :
    cursor.advance.lines = [cursor.endLine, cursor.endLine] ∧
      cursor.ahead = [cursor.endLine] := by
  simp [lines, ahead, advance, peek, h]

theorem lines_advance_subset (cursor : Cursor) :
    cursor.advance.lines ⊆ cursor.ahead := by
  cases hunread : cursor.unread with
  | nil =>
      obtain ⟨hlines, hahead⟩ := lines_advance_of_nil hunread
      simp [hlines, hahead]
  | cons token tokens =>
      rw [lines_advance_of_cons hunread]
      exact List.Subset.refl _

theorem ascends_advance (h : cursor.ahead.Pairwise (· ≤ ·)) :
    cursor.advance.Ascends := by
  rw [Ascends]
  cases hunread : cursor.unread with
  | nil => simp [(lines_advance_of_nil hunread).1]
  | cons token tokens =>
      rw [lines_advance_of_cons hunread]
      exact h

theorem Ascends.ahead (h : cursor.Ascends) : cursor.ahead.Pairwise (· ≤ ·) :=
  (List.pairwise_cons.1 h).2

theorem Ascends.line_le (h : cursor.Ascends) {line : Nat}
    (hline : line ∈ cursor.lines) : cursor.line ≤ line := by
  rcases List.mem_cons.1 hline with rfl | hline
  · exact Nat.le_refl _
  · exact (List.pairwise_cons.1 h).1 line hline

theorem Ascends.line_le_peek (h : cursor.Ascends) :
    cursor.line ≤ cursor.peek.line :=
  h.line_le (List.mem_cons_of_mem _ cursor.peek_mem_ahead)

/-- The next token is in front of all that come up once it is read. -/
theorem peek_le (h : cursor.ahead.Pairwise (· ≤ ·)) {line : Nat}
    (hline : line ∈ cursor.ahead) : cursor.peek.line ≤ line := by
  obtain ⟨later, hahead⟩ := cursor.exists_ahead
  rw [hahead] at h hline
  rcases List.mem_cons.1 hline with rfl | hline
  · exact Nat.le_refl _
  · exact (List.pairwise_cons.1 h).1 line hline

end Cursor

/-- The diagnostics are in the order of their lines, none of which is below
`limit`. -/
structure UpTo (limit : Nat) (diagnostics : List Diagnostic) : Prop where
  ascending : diagnostics.Pairwise (·.line ≤ ·.line)
  le : ∀ diagnostic ∈ diagnostics, diagnostic.line ≤ limit

theorem upTo_nil (limit : Nat) : UpTo limit [] := ⟨.nil, List.forall_mem_nil _⟩

theorem UpTo.mono {limit limit' : Nat} {diagnostics : List Diagnostic}
    (h : UpTo limit diagnostics) (hle : limit ≤ limit') :
    UpTo limit' diagnostics :=
  ⟨h.ascending, fun diagnostic hmem => Nat.le_trans (h.le diagnostic hmem) hle⟩

theorem UpTo.append {limit limit' : Nat} {earlier later : List Diagnostic}
    (h : UpTo limit earlier) (h' : UpTo limit' later) (hle : limit ≤ limit')
    (hlater : ∀ diagnostic ∈ later, limit ≤ diagnostic.line) :
    UpTo limit' (earlier ++ later) where
  ascending := by
    refine List.pairwise_append.2 ⟨h.ascending, h'.ascending,
      fun first hfirst second hsecond => ?_⟩
    exact Nat.le_trans (h.le first hfirst) (hlater second hsecond)
  le := List.forall_mem_append.2 ⟨(h.mono hle).le, h'.le⟩

namespace Outcome

variable {α β : Type} {lines lines' : List Nat} {outcome : Outcome Diagnostic α}

/-- The diagnostics on the way come in order and are not below the token read
last.  An error is found in that token or in the next one.  Nothing comes up but
the given lines. -/
structure InOrder (lines : List Nat) (outcome : Outcome Diagnostic α) :
    Prop where
  ascends : outcome.rest.Ascends
  reached : outcome.rest.lines ⊆ lines
  recorded : UpTo outcome.rest.line outcome.diagnostics
  found : ∀ diagnostic ∈ outcome.diagnostics, diagnostic.line ∈ lines
  blames : ∀ e, outcome.result = .error e →
    e.line = outcome.rest.line ∨ e.line = outcome.rest.peek.line

namespace InOrder

/-- Where nothing is recorded on the way, the error is all there is to
report. -/
theorem quiet {result : Except Diagnostic α} {rest : Cursor}
    (hascends : rest.Ascends) (hreached : rest.lines ⊆ lines)
    (hblames : ∀ e, result = .error e → e.line = rest.line ∨
      e.line = rest.peek.line) :
    InOrder lines ⟨result, [], rest⟩ :=
  ⟨hascends, hreached, upTo_nil _, List.forall_mem_nil _, hblames⟩

theorem ok (a : α) {rest : Cursor} (hascends : rest.Ascends)
    (hreached : rest.lines ⊆ lines) : InOrder lines ⟨.ok a, [], rest⟩ := by
  refine quiet hascends hreached fun e he => ?_
  cases he

theorem mono (h : outcome.InOrder lines) (hsubset : lines ⊆ lines') :
    outcome.InOrder lines' where
  ascends := h.ascends
  reached := List.Subset.trans h.reached hsubset
  recorded := h.recorded
  found diagnostic hmem := hsubset (h.found diagnostic hmem)
  blames := h.blames

/-- With the error, the diagnostics are still not below the next token. -/
theorem reported (h : outcome.InOrder lines) :
    UpTo outcome.rest.peek.line outcome.reported ∧
      ∀ diagnostic ∈ outcome.reported, diagnostic.line ∈ lines := by
  have hpeek := h.ascends.line_le_peek
  rw [Outcome.reported]
  cases hresult : outcome.result with
  | ok a => exact ⟨h.recorded.mono hpeek, h.found⟩
  | error e =>
      have hblames := h.blames e hresult
      have hbetween : outcome.rest.line ≤ e.line ∧
          e.line ≤ outcome.rest.peek.line := by omega
      have hline : e.line ∈ outcome.rest.lines := by
        rcases hblames with heq | heq <;> rw [heq]
        · exact List.mem_cons_self
        · exact List.mem_cons_of_mem _ outcome.rest.peek_mem_ahead
      constructor
      · refine h.recorded.append ⟨List.pairwise_singleton _ e, ?_⟩ hpeek ?_
        · exact List.forall_mem_singleton.2 hbetween.2
        · exact List.forall_mem_singleton.2 hbetween.1
      · refine List.forall_mem_append.2 ⟨h.found, ?_⟩
        exact List.forall_mem_singleton.2 (h.reached hline)

theorem continueWith {next : α → Parser Diagnostic β}
    (h : outcome.InOrder lines)
    (hnext : ∀ a, ((next a).run outcome.rest).InOrder outcome.rest.lines) :
    (Parser.continueWith next outcome).InOrder lines := by
  rw [Parser.continueWith]
  split
  · next e hresult =>
      refine ⟨h.ascends, h.reached, h.recorded, h.found, ?_⟩
      rintro _ ⟨⟩
      exact h.blames e hresult
  · next a hresult =>
      have hafter := hnext a
      have hlater : ∀ diagnostic ∈ ((next a).run outcome.rest).diagnostics,
          outcome.rest.line ≤ diagnostic.line :=
        fun diagnostic hmem => h.ascends.line_le (hafter.found diagnostic hmem)
      have hline : outcome.rest.line ≤ ((next a).run outcome.rest).rest.line :=
        h.ascends.line_le (hafter.reached List.mem_cons_self)
      have hwhole := hafter.mono h.reached
      refine ⟨hwhole.ascends, hwhole.reached, ?_, ?_, hwhole.blames⟩
      · exact h.recorded.append hwhole.recorded hline hlater
      · exact List.forall_mem_append.2 ⟨h.found, hwhole.found⟩

end InOrder

end Outcome

namespace Parser

variable {α β : Type} {item : Parser Diagnostic α}

/-- From every position with ascending lines, what the parser reports is in
order. -/
def Orderly (parser : Parser Diagnostic α) : Prop :=
  ∀ cursor : Cursor, cursor.Ascends → (parser.run cursor).InOrder cursor.lines

theorem orderly_pure (a : α) : Orderly (pure a : Parser Diagnostic α) :=
  fun _ h => .ok a h (List.Subset.refl _)

theorem Orderly.bind {first : Parser Diagnostic α}
    {next : α → Parser Diagnostic β} (h : Orderly first)
    (hnext : ∀ a, Orderly (next a)) : Orderly (first >>= next) := by
  intro cursor hascends
  have hfirst := h cursor hascends
  exact hfirst.continueWith fun a => hnext a _ hfirst.ascends

theorem orderly_next : Orderly (next : Parser Diagnostic Token) := by
  intro cursor h
  have hsubset : cursor.advance.lines ⊆ cursor.lines :=
    List.subset_cons_of_subset _ cursor.lines_advance_subset
  exact .ok cursor.peek (Cursor.ascends_advance h.ahead) hsubset

theorem orderly_reject (problem : Problem) :
    Orderly (reject problem : Parser Diagnostic α) := by
  intro cursor h
  refine .quiet h (List.Subset.refl _) ?_
  rintro _ ⟨⟩
  exact Or.inl rfl

/-- What is done next may depend on the next token, and may blame it. -/
theorem orderly_peek {next : Token → Parser Diagnostic α}
    (h : ∀ cursor : Cursor, cursor.Ascends →
      ((next cursor.peek).run cursor).InOrder cursor.lines) :
      Orderly (peek >>= next) := by
  intro cursor hascends
  exact h cursor hascends

/-- Ends with the report that another token is missing in front of the next
one. -/
theorem inOrder_missing (wanted : TokenKind) {cursor : Cursor}
    (h : cursor.Ascends) :
    ((fail ⟨.expectedToken wanted cursor.peek.kind, cursor.peek.line⟩ :
      Parser Diagnostic α).run cursor).InOrder cursor.lines := by
  refine .quiet h (List.Subset.refl _) ?_
  rintro _ ⟨⟩
  exact Or.inr rfl

theorem orderly_skip (kind : TokenKind) :
    Orderly (skip kind : Parser Diagnostic Bool) := by
  refine orderly_peek fun cursor h => ?_
  split
  · exact (orderly_next.bind fun _ => orderly_pure true) cursor h
  · exact orderly_pure false cursor h

theorem orderly_expect (kind : TokenKind) : Orderly (expect kind) := by
  refine orderly_peek fun cursor h => ?_
  split
  · exact orderly_next cursor h
  · exact inOrder_missing kind h

theorem Orderly.commaItems (h : Orderly item) : Orderly (commaItems item) := by
  intro cursor hascends
  -- Every item has a comma in front of it, so fewer tokens are left behind it.
  induction hremaining : cursor.remaining
    using Nat.strongRecOn generalizing cursor with
  | ind remaining ih =>
      by_cases hcomma : cursor.peek.kind = .comma
      · rw [run_commaItems_of_comma item hcomma]
        have hnext := orderly_next cursor hascends
        have hitem := h cursor.advance hnext.ascends
        have hless : (item.run cursor.advance).rest.remaining < remaining := by
          refine Nat.lt_of_le_of_lt (item.remaining_le _) (hremaining ▸ ?_)
          exact Cursor.remaining_advance_lt_of_kind_ne (by rw [hcomma]; decide)
        refine (hitem.continueWith fun a => ?_).mono hnext.reached
        have hothers := ih _ hless _ hitem.ascends rfl
        exact hothers.continueWith fun others =>
          orderly_pure _ _ hothers.ascends
      · rw [run_commaItems_of_ne item hcomma]
        exact orderly_pure [] cursor hascends

theorem Orderly.delimited (h : Orderly item) (close wanted : TokenKind) :
    Orderly (delimited close wanted item) := by
  refine (orderly_skip close).bind fun skipped => ?_
  cases skipped with
  | true => exact orderly_pure []
  | false =>
      refine h.bind fun first => h.commaItems.bind fun others => ?_
      refine orderly_peek fun cursor hascends => ?_
      split
      · exact (orderly_next.bind fun _ => orderly_pure _) cursor hascends
      · exact inOrder_missing wanted hascends

/-- Items up to a closing token.  After an item, whether it was dropped or not,
the next token is read before anything else is reported. -/
theorem inOrder_repeated {item : Token → Parser Diagnostic α}
    (h : ∀ first, Orderly (item first)) (closes : TokenKind → Bool)
    (cursor : Cursor) (hahead : cursor.ahead.Pairwise (· ≤ ·)) :
    ((repeated closes item).run cursor).InOrder cursor.ahead := by
  induction hremaining : cursor.remaining
    using Nat.strongRecOn generalizing cursor with
  | ind remaining ih =>
      have hadvance := Cursor.ascends_advance hahead
      by_cases hcloses : cursor.peek.kind = .eof ∨ closes cursor.peek.kind
      · rw [run_repeated_of_closes item hcloses]
        exact .ok [] hadvance cursor.lines_advance_subset
      · rw [run_repeated_of_open item hcloses]
        have hless := remaining_fromNext_lt item fun heof =>
          hcloses (Or.inl heof)
        rw [hremaining] at hless
        have hitem : ((fromNext item).run cursor).InOrder cursor.ahead :=
          (h cursor.peek cursor.advance hadvance).mono
            cursor.lines_advance_subset
        generalize (fromNext item).run cursor = outcome at hitem hless ⊢
        obtain ⟨hreported, hfound⟩ := hitem.reported
        have hrest := ih _ hless outcome.rest hitem.ascends.ahead rfl
        have hsubset : outcome.rest.ahead ⊆ cursor.ahead :=
          List.Subset.trans (List.subset_cons_self _ _) hitem.reached
        have hlater {line : Nat} (hline : line ∈ outcome.rest.ahead) :
            outcome.rest.peek.line ≤ line :=
              Cursor.peek_le hitem.ascends.ahead hline
        refine ⟨hrest.ascends, List.Subset.trans hrest.reached hsubset,
          ?_, ?_, ?_⟩
        · exact hreported.append hrest.recorded
            (hlater (hrest.reached List.mem_cons_self)) fun diagnostic hmem =>
            hlater (hrest.found diagnostic hmem)
        · refine List.forall_mem_append.2 ⟨hfound, fun diagnostic hmem => ?_⟩
          exact hsubset (hrest.found diagnostic hmem)
        · intro e he
          cases he

section Grammar

variable {read : ExprParser}

/-- Expressions are read in order. -/
def ReadsOrderly (read : ExprParser) : Prop :=
  ∀ strength first, Orderly (read strength first)

namespace ReadsOrderly

theorem operand (h : ReadsOrderly read) (strength : Precedence) :
    Orderly (operand read strength) :=
  orderly_next.bind (h strength)

theorem statement (h : ReadsOrderly read) (first : Token) :
    Orderly (statement read first) := by
  have hclause : Orderly (clause read first) := by
    rw [clause]
    split
    · refine (orderly_expect .ident).bind fun name =>
        (orderly_expect .assign).bind fun _ => ?_
      exact (h.operand .lowest).bind fun _ => orderly_pure _
    · split
      · exact (h.operand .lowest).bind fun _ => orderly_pure _
      · exact (h .lowest first).bind fun _ => orderly_pure _
  rw [statement_eq]
  exact hclause.bind fun _ => (orderly_skip .semicolon).bind fun _ =>
    orderly_pure _

theorem block (h : ReadsOrderly read) : Orderly (block read) := by
  intro cursor hascends
  have hblock :=
    inOrder_repeated h.statement (· == .rbrace) cursor hascends.ahead
  exact hblock.mono (List.subset_cons_self _ _)

theorem pair (h : ReadsOrderly read) : Orderly (pair read) := by
  refine (h.operand .lowest).bind fun key => ?_
  refine (orderly_expect .colon).bind fun _ => ?_
  exact (h.operand .lowest).bind fun _ => orderly_pure _

theorem elseBranch (h : ReadsOrderly read) : Orderly (elseBranch read) := by
  refine (orderly_skip .elseWord).bind fun skipped => ?_
  cases skipped with
  | true =>
      refine (orderly_expect .lbrace).bind fun _ => ?_
      exact h.block.bind fun _ => orderly_pure _
  | false => exact orderly_pure none

theorem primary (h : ReadsOrderly read) (first : Token) :
    Orderly (primary read first) := by
  rw [Parser.primary]
  cases first.kind.opening? with
  | none => exact orderly_reject _
  | some opening =>
      cases opening with
      | identifier => exact orderly_pure _
      | integer =>
          dsimp only
          cases Integer.ofText? first.literal with
          | some value => exact orderly_pure _
          | none => exact orderly_reject _
      | string => exact orderly_pure _
      | boolean value => exact orderly_pure _
      | operator op => exact (h.operand .unary).bind fun _ => orderly_pure _
      | group =>
          refine (h.operand .lowest).bind fun inner => ?_
          exact (orderly_expect .rparen).bind fun _ => orderly_pure _
      | array =>
          exact ((h.operand .lowest).delimited _ _).bind fun _ => orderly_pure _
      | hash => exact (h.pair.delimited _ _).bind fun _ => orderly_pure _
      | conditional =>
          refine (orderly_expect .lparen).bind fun _ =>
            (h.operand .lowest).bind fun _ => ?_
          refine (orderly_expect .rparen).bind fun _ =>
            (orderly_expect .lbrace).bind fun _ => ?_
          exact h.block.bind fun _ => h.elseBranch.bind fun _ => orderly_pure _
      | function =>
          refine (orderly_expect .lparen).bind fun _ => ?_
          refine ((orderly_expect .ident).delimited _ _).bind
            fun parameters => ?_
          refine (orderly_expect .lbrace).bind fun _ => ?_
          exact h.block.bind fun _ => orderly_pure _
      | illegal => exact orderly_reject _

theorem extended (h : ReadsOrderly read) (left : Expr) (extension : Extension) :
    Orderly (extended read left extension) := by
  cases extension with
  | operator op => exact (h.operand op.precedence).bind fun _ => orderly_pure _
  | arguments =>
      exact ((h.operand .lowest).delimited _ _).bind fun _ => orderly_pure _
  | position =>
      refine (h.operand .lowest).bind fun _ => ?_
      exact (orderly_expect .rbracket).bind fun _ => orderly_pure _

end ReadsOrderly

theorem orderly_extensionAbove (strength : Precedence) :
    Orderly (extensionAbove strength) :=
  orderly_peek fun cursor h => orderly_pure _ cursor h

theorem orderly_extend {levels : Nat}
    (hread : ∀ fewer < levels, ReadsOrderly (expr fewer))
    (strength : Precedence) (left : Expr) :
    Orderly (extend levels strength left) := by
  induction levels generalizing left with
  | zero =>
      rw [extend]
      refine (orderly_extensionAbove strength).bind fun extension => ?_
      cases extension with
      | none => exact orderly_pure left
      | some extension => exact orderly_reject _
  | succ levels ih =>
      rw [extend]
      refine (orderly_extensionAbove strength).bind fun extension => ?_
      cases extension with
      | none => exact orderly_pure left
      | some extension =>
          refine orderly_next.bind fun _ => ?_
          refine ((hread levels (Nat.lt_succ_self levels)).extended left
            extension).bind ?_
          exact ih fun fewer hfewer => hread fewer (Nat.lt_succ_of_lt hfewer)

theorem readsOrderly_expr (levels : Nat) : ReadsOrderly (expr levels) := by
  induction levels using Nat.strongRecOn with
  | ind levels ih =>
      intro strength first
      cases levels with
      | zero =>
          rw [expr]
          exact orderly_reject _
      | succ levels =>
          rw [expr]
          refine ((ih levels (Nat.lt_succ_self levels)).primary first).bind
            fun left => ?_
          exact orderly_extend
            (fun fewer hfewer => ih fewer (Nat.lt_succ_of_lt hfewer)) _ left

end Grammar

end Parser

/-- The lines of tokens ascend from the line the text starts on to the line it
ends on. -/
theorem Piece.lines_tokens (line : Nat) (pieces : List Piece) :
    (line :: ((tokens line pieces).map Token.line ++
      [line + lineFeeds (pieces.flatMap text)])).Pairwise (· ≤ ·) := by
  induction pieces generalizing line with
  | nil => simp [tokens]
  | cons piece pieces ih =>
      have hrest := ih (line + lineFeeds piece.text)
      have hend : line + lineFeeds ((piece :: pieces).flatMap text) =
          line + lineFeeds piece.text + lineFeeds (pieces.flatMap text) := by
        rw [List.flatMap_cons, lineFeeds_append, Nat.add_assoc]
      rw [hend]
      obtain ⟨hstart, hlater⟩ := List.pairwise_cons.1 hrest
      have hbefore :
          ∀ other ∈ (tokens (line + lineFeeds piece.text) pieces).map Token.line
            ++ [line + lineFeeds piece.text + lineFeeds (pieces.flatMap text)],
            line ≤ other :=
        fun other hother =>
          Nat.le_trans (Nat.le_add_right _ _) (hstart other hother)
      cases piece with
      | gap text => exact List.pairwise_cons.2 ⟨hbefore, hlater⟩
      | token kind literal text =>
          have htoken := List.pairwise_cons.2 ⟨hbefore, hlater⟩
          refine List.pairwise_cons.2 ⟨?_, htoken⟩
          exact List.forall_mem_cons.2 ⟨Nat.le_refl line, hbefore⟩

namespace Parsed

/-- Diagnostics come in the order of the source text.  Their lines never go
back, and each of them is the line of a token, or that of the end of input; so
none is above the first line or below the last one. -/
theorem diagnostics_in_source_order (source : String) :
    let lines := (ofSource source).diagnostics.map Diagnostic.line
    lines.Pairwise (· ≤ ·) ∧
      (∀ line ∈ lines, ∃ token ∈ (TokenStream.ofSource source).take 1,
        token.line = line) ∧
      ∀ line ∈ lines, 1 ≤ line ∧ line ≤ 1 + lineFeeds source.toList := by
  intro lines
  let stream := TokenStream.ofSource source
  let start := Cursor.ofStream stream
  have hlines : (1 :: start.ahead).Pairwise (· ≤ ·) := by
    have hall := Piece.lines_tokens 1 (Piece.cut source.toList)
    rw [Piece.flatMap_text_cut] at hall
    exact hall
  obtain ⟨hfirst, hahead⟩ := List.pairwise_cons.1 hlines
  have horder :=
    Parser.inOrder_repeated (Parser.readsOrderly_expr maxNesting).statement
      (fun _ => false) start hahead
  have hdiagnostics : (ofSource source).diagnostics =
      (Parser.sentences.run start).diagnostics :=
    rfl
  have hfound : ∀ line ∈ lines, line ∈ start.ahead := by
    intro line hline
    obtain ⟨diagnostic, hmem, rfl⟩ := List.mem_map.1 hline
    exact horder.found diagnostic (hdiagnostics ▸ hmem)
  refine ⟨?_, fun line hline => ?_, fun line hline =>
    ⟨hfirst line (hfound line hline), ?_⟩⟩
  · exact List.pairwise_map.2 (hdiagnostics ▸ horder.recorded.ascending)
  · have htokens : start.ahead = (stream.take 1).map Token.line := by
      rw [TokenStream.take, List.map_append]
      rfl
    exact List.mem_map.1 (htokens ▸ hfound line hline)
  · rcases List.mem_append.1 (hfound line hline) with hmem | hmem
    · exact (List.pairwise_append.1 hahead).2.2 line hmem
        _ (List.mem_singleton_self _)
    · exact Nat.le_of_eq (List.mem_singleton.1 hmem)

end Parsed

end Scriptlet
