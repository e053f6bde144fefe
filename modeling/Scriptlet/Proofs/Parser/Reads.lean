/-
Parsers that read given tokens to a given value.  The rules below follow the
ways of putting parsers together: a parser made of two parts reads what its
parts read, one behind the other.

One thing can still go wrong, and that is nesting.  A reading carries the
condition under which it is short of levels; when the condition holds, the
parser reports that expressions nest too deep.
-/
import Scriptlet.Parser.Grammar

namespace Scriptlet

/-- The kind of the first token, or that of the end of input. -/
def nextKind : List Token → TokenKind
  | [] => .eof
  | token :: _ => token.kind

@[simp] theorem nextKind_cons (token : Token) (tokens : List Token) :
    nextKind (token :: tokens) = token.kind := rfl

namespace Cursor

variable {cursor : Cursor} {token : Token} {tokens : List Token}

/-- What is left to read is `tokens`, and behind them only ends of input. -/
def At (cursor : Cursor) (tokens : List Token) : Prop :=
  ∃ ends, cursor.unread = tokens ++ ends ∧
    (∀ token ∈ tokens, token.kind ≠ .eof) ∧ ∀ token ∈ ends, token.kind = .eof

theorem At.unread_cons (h : cursor.At (token :: tokens)) :
    ∃ later, cursor.unread = token :: later := by
  obtain ⟨ends, hunread, _, _⟩ := h
  exact ⟨tokens ++ ends, hunread⟩

theorem At.peek_eq (h : cursor.At (token :: tokens)) : cursor.peek = token := by
  obtain ⟨later, hunread⟩ := h.unread_cons
  simp [peek, hunread]

theorem At.kind_ne_eof (h : cursor.At (token :: tokens)) :
    token.kind ≠ .eof := by
  obtain ⟨ends, _, htokens, _⟩ := h
  exact htokens token List.mem_cons_self

theorem At.peek_kind (h : cursor.At tokens) :
    cursor.peek.kind = nextKind tokens := by
  cases tokens with
  | cons token tokens => rw [h.peek_eq, nextKind_cons]
  | nil =>
      obtain ⟨ends, hunread, _, hends⟩ := h
      rw [List.nil_append] at hunread
      cases ends with
      | nil => simp [peek, hunread, nextKind]
      | cons token ends =>
          have hkind := hends token List.mem_cons_self
          simp [peek, hunread, hkind, nextKind]

theorem At.advance (h : cursor.At tokens) : cursor.advance.At tokens.tail := by
  obtain ⟨ends, hunread, htokens, hends⟩ := h
  cases tokens with
  | cons token tokens =>
      refine ⟨ends, by simp [Cursor.advance, hunread], ?_, hends⟩
      intro other hother
      exact htokens other (List.mem_cons_of_mem token hother)
  | nil =>
      refine ⟨ends.tail, by simp [Cursor.advance, hunread], htokens, ?_⟩
      intro other hother
      exact hends other (List.mem_of_mem_tail hother)

/-- Only the end of input can be read without an end. -/
theorem remaining_advance_lt_of_kind_ne (h : cursor.peek.kind ≠ .eof) :
    cursor.advance.remaining < cursor.remaining := by
  cases hunread : cursor.unread with
  | nil => simp [peek, hunread] at h
  | cons token later => exact remaining_advance_lt hunread

end Cursor

namespace Outcome

variable {ε α : Type}

/-- Everything an outcome has to report: the diagnostics recorded on the way
and the error it ended with. -/
def reported (outcome : Outcome Diagnostic α) : List Diagnostic :=
  match outcome.result with
  | .ok _ => outcome.diagnostics
  | .error e => outcome.diagnostics ++ [e]

/-- Whether expressions are reported to nest too deep. -/
def TooDeep (outcome : Outcome Diagnostic α) : Prop :=
  ∃ diagnostic ∈ outcome.reported,
    diagnostic.problem = .nestingTooDeep maxNesting

@[simp] theorem after_nil (outcome : Outcome ε α) :
    outcome.after [] = outcome := rfl

theorem reported_after (earlier : List Diagnostic)
    (outcome : Outcome Diagnostic α) :
    (outcome.after earlier).reported = earlier ++ outcome.reported := by
  cases hresult : outcome.result <;>
    simp [reported, after, hresult]

theorem reported_map {β : Type} (f : α → β) (outcome : Outcome Diagnostic α) :
    (outcome.map f).reported = outcome.reported := by
  cases hresult : outcome.result <;>
    simp [reported, map, hresult, Except.map]

theorem TooDeep.after {outcome : Outcome Diagnostic α}
    (earlier : List Diagnostic) (h : outcome.TooDeep) :
    (outcome.after earlier).TooDeep := by
  obtain ⟨diagnostic, hmem, hproblem⟩ := h
  refine ⟨diagnostic, ?_, hproblem⟩
  rw [reported_after]
  exact List.mem_append_right earlier hmem

end Outcome

namespace Parser

variable {ε α β : Type}

theorem tooDeep_continueWith {outcome : Outcome Diagnostic α}
    (next : α → Parser Diagnostic β) (h : outcome.TooDeep) :
    (continueWith next outcome).TooDeep := by
  obtain ⟨diagnostic, hmem, hproblem⟩ := h
  refine ⟨diagnostic, ?_, hproblem⟩
  cases hresult : outcome.result with
  | error e => simpa [continueWith, Outcome.reported, hresult] using hmem
  | ok a =>
      have hrecorded : diagnostic ∈ outcome.diagnostics := by
        simpa [Outcome.reported, hresult] using hmem
      simp only [continueWith, hresult, Outcome.reported_after]
      exact List.mem_append_left _ hrecorded

/-- The parser that reads a token and goes on with it. -/
def fromNext (item : Token → Parser ε α) : Parser ε α := do
  item (← next)

theorem run_fromNext (item : Token → Parser ε α) (cursor : Cursor) :
    (fromNext item).run cursor = (item cursor.peek).run cursor.advance := rfl

theorem remaining_fromNext_lt (item : Token → Parser ε α) {cursor : Cursor}
    (h : cursor.peek.kind ≠ .eof) :
    ((fromNext item).run cursor).rest.remaining < cursor.remaining := by
  rw [run_fromNext]
  exact Nat.lt_of_le_of_lt (remaining_le _ _)
    (Cursor.remaining_advance_lt_of_kind_ne h)

/-- The parser reads `tokens` up to `rest` and gives `a`, without a word about
it, unless it is `short` of levels. -/
def Reads (parser : Parser Diagnostic α) (short : Prop)
    (tokens : List Token) (a : α) (rest : List Token) : Prop :=
  ∀ cursor : Cursor, cursor.At tokens →
    (¬ short ∧ ∃ after, parser.run cursor = ⟨.ok a, [], after⟩ ∧
      after.At rest) ∨
      (short ∧ (parser.run cursor).TooDeep)

variable {parser : Parser Diagnostic α} {short short' : Prop}
  {tokens tokens' rest : List Token} {token : Token} {a : α} {b : β}

theorem Reads.congr (h : parser.Reads short tokens a rest)
    (hiff : short ↔ short') : parser.Reads short' tokens a rest := by
  rw [propext hiff] at h
  exact h

theorem reads_pure (a : α) (tokens : List Token) :
    (pure a : Parser Diagnostic α).Reads False tokens a tokens := by
  intro cursor hat
  exact Or.inl ⟨id, cursor, rfl, hat⟩

theorem Reads.bind {next : α → Parser Diagnostic β}
    (hfirst : parser.Reads short tokens a tokens')
    (hnext : (next a).Reads short' tokens' b rest) :
    (parser >>= next).Reads (short ∨ short') tokens b rest := by
  intro cursor hat
  rw [run_bind]
  rcases hfirst cursor hat with
    ⟨henough, middle, hrun, hmiddle⟩ | ⟨hshort, hdeep⟩
  · rw [hrun]
    rcases hnext middle hmiddle with
      ⟨henough', after, hrun', hafter⟩ | ⟨hshort', hdeep⟩
    · refine Or.inl ⟨by simp [henough, henough'], after, ?_, hafter⟩
      simp [continueWith, Outcome.after, hrun']
    · exact Or.inr ⟨Or.inr hshort', hdeep.after []⟩
  · exact Or.inr ⟨Or.inl hshort, tooDeep_continueWith next hdeep⟩

/-- A first part that needs no levels adds nothing to the condition. -/
theorem Reads.then {next : α → Parser Diagnostic β}
    (hfirst : parser.Reads False tokens a tokens')
    (hnext : (next a).Reads short tokens' b rest) :
    (parser >>= next).Reads short tokens b rest :=
  (hfirst.bind hnext).congr (iff_of_eq (false_or short))

/-- A second part that needs no levels adds nothing to the condition. -/
theorem Reads.finish {next : α → Parser Diagnostic β}
    (hfirst : parser.Reads short tokens a tokens')
    (hnext : (next a).Reads False tokens' b rest) :
    (parser >>= next).Reads short tokens b rest :=
  (hfirst.bind hnext).congr (iff_of_eq (or_false short))

theorem reads_peek (tokens : List Token) (htokens : tokens = token :: rest) :
    (peek : Parser Diagnostic Token).Reads False tokens token tokens := by
  subst htokens
  intro cursor hat
  exact Or.inl ⟨id, cursor, by simp [peek, hat.peek_eq], hat⟩

theorem reads_next (token : Token) (tokens : List Token) :
    (next : Parser Diagnostic Token).Reads False (token :: tokens)
      token tokens := by
  intro cursor hat
  exact Or.inl ⟨id, cursor.advance, by simp [next, hat.peek_eq], hat.advance⟩

theorem reads_expect {kind : TokenKind} (hkind : token.kind = kind)
    (tokens : List Token) :
    (expect kind).Reads False (token :: tokens) token tokens := by
  refine Reads.then (reads_peek _ rfl) ?_
  rw [if_pos hkind]
  exact reads_next token tokens

theorem run_skip_of_eq {kind : TokenKind} {cursor : Cursor}
    (h : cursor.peek.kind = kind) :
    (skip kind : Parser ε Bool).run cursor =
      ⟨.ok true, [], cursor.advance⟩ := by
  simp [skip, peek, next, continueWith, h, Outcome.after]

theorem run_skip_of_ne {kind : TokenKind} {cursor : Cursor}
    (h : cursor.peek.kind ≠ kind) :
    (skip kind : Parser ε Bool).run cursor = ⟨.ok false, [], cursor⟩ := by
  simp [skip, peek, continueWith, h, Outcome.after]

theorem reads_skip_of_eq {kind : TokenKind} (hkind : token.kind = kind)
    (tokens : List Token) :
    (skip kind : Parser Diagnostic Bool).Reads False (token :: tokens)
      true tokens := by
  refine Reads.then (reads_peek _ rfl) ?_
  rw [if_pos hkind]
  exact Reads.then (reads_next token tokens) (reads_pure true tokens)

theorem reads_skip_of_ne {kind : TokenKind} (hkind : nextKind tokens ≠ kind) :
    (skip kind : Parser Diagnostic Bool).Reads False tokens false tokens := by
  intro cursor hat
  refine Or.inl ⟨id, cursor, ?_, hat⟩
  have hpeek : cursor.peek.kind ≠ kind := hat.peek_kind ▸ hkind
  exact run_skip_of_ne hpeek

theorem continueWith_pure (f : α → β) (outcome : Outcome ε α) :
    continueWith (fun a => pure (f a)) outcome = outcome.map f := by
  cases hresult : outcome.result <;>
    simp [continueWith, Outcome.map, Outcome.after, hresult, Except.map]

theorem run_commaItems_of_ne (item : Parser ε α) {cursor : Cursor}
    (hkind : cursor.peek.kind ≠ .comma) :
    (commaItems item).run cursor = ⟨.ok [], [], cursor⟩ := by
  change runCommaItems item cursor = _
  rw [runCommaItems]
  split
  · rfl
  · next first later hunread =>
      have hfirst : first.kind ≠ .comma := by
        simpa [Cursor.peek, hunread] using hkind
      rw [if_neg hfirst]

theorem run_commaItems_of_comma (item : Parser ε α) {cursor : Cursor}
    (hkind : cursor.peek.kind = .comma) :
    (commaItems item).run cursor =
      (do let a ← item; let others ← commaItems item; pure (a :: others)).run
        cursor.advance := by
  change runCommaItems item cursor = _
  rw [runCommaItems]
  split
  · next hunread => simp [Cursor.peek, hunread] at hkind
  · next first later hunread =>
      have hfirst : first.kind = .comma := by
        simpa [Cursor.peek, hunread] using hkind
      rw [if_pos hfirst, run_bind, continueWith]
      split
      · next herror => simp [herror]
      · next a hok =>
          simp only [hok, run_bind, continueWith_pure]
          rfl

theorem run_commaItems (item : Parser ε α) (cursor : Cursor) :
    (commaItems item).run cursor =
      (do
        if ← skip .comma then
          let first ← item
          let others ← commaItems item
          pure (first :: others)
        else
          pure [] : Parser ε (List α)).run cursor := by
  by_cases hkind : cursor.peek.kind = .comma
  · rw [run_commaItems_of_comma item hkind, run_bind (skip .comma),
      run_skip_of_eq hkind]
    rfl
  · rw [run_commaItems_of_ne item hkind, run_bind, run_skip_of_ne hkind]
    rfl

theorem reads_commaItems_nil {item : Parser Diagnostic α}
    (hkind : nextKind tokens ≠ .comma) :
    (commaItems item).Reads False tokens [] tokens := by
  intro cursor hat
  have hpeek : cursor.peek.kind ≠ .comma := hat.peek_kind ▸ hkind
  exact Or.inl ⟨id, cursor, run_commaItems_of_ne item hpeek, hat⟩

theorem reads_commaItems_cons {item : Parser Diagnostic α} {others : List α}
    (hcomma : token.kind = .comma) (hitem : item.Reads short tokens a tokens')
    (hothers : (commaItems item).Reads short' tokens' others rest) :
    (commaItems item).Reads (short ∨ short') (token :: tokens)
    (a :: others) rest := by
  intro cursor hat
  have hpeek : cursor.peek.kind = .comma := hat.peek_eq ▸ hcomma
  rw [run_commaItems_of_comma item hpeek]
  have hboth :
      Reads (do let a ← item; let others ← commaItems item; pure (a :: others))
        (short ∨ short') tokens (a :: others) rest := by
    refine Reads.bind hitem ?_
    exact Reads.finish hothers (reads_pure (a :: others) rest)
  exact hboth cursor.advance hat.advance

theorem reads_delimited_nil {close wanted : TokenKind}
    (item : Parser Diagnostic α) (hclose : token.kind = close)
    (tokens : List Token) :
    (delimited close wanted item).Reads False (token :: tokens) [] tokens :=
  Reads.then (reads_skip_of_eq hclose tokens) (reads_pure [] tokens)

theorem reads_delimited_cons {close wanted : TokenKind}
    {item : Parser Diagnostic α} {others : List α} {after : List Token}
    (hopen : nextKind tokens ≠ close)
    (hitem : item.Reads short tokens a tokens')
    (hothers : (commaItems item).Reads short' tokens' others after)
    (hafter : after = token :: rest) (hclose : token.kind = close) :
    (delimited close wanted item).Reads (short ∨ short') tokens
    (a :: others) rest := by
  subst hafter
  refine Reads.then (reads_skip_of_ne hopen) ?_
  rw [if_neg Bool.false_ne_true]
  refine Reads.bind hitem ?_
  refine Reads.finish hothers ?_
  refine Reads.then (reads_peek _ rfl) ?_
  rw [if_pos hclose]
  exact Reads.then (reads_next token rest) (reads_pure _ rest)

theorem run_recover (parser : Parser Diagnostic α) (cursor : Cursor) :
    (recover parser).run cursor =
      ⟨.ok (parser.run cursor).result.toOption, (parser.run cursor).reported,
        (parser.run cursor).rest⟩ := by
  cases hresult : (parser.run cursor).result <;>
    simp [recover, Outcome.reported, hresult, Except.toOption]

section Repetition

variable {closes : TokenKind → Bool} {item : Token → Parser Diagnostic α}

/-- Items up to a closing token, each dropped if it is malformed. -/
def repeated (closes : TokenKind → Bool) (item : Token → Parser Diagnostic α) :
    Parser Diagnostic (List α) :=
  always (manyUntil closes fun first => recover (item first))

theorem run_repeated_of_closes (item : Token → Parser Diagnostic α)
    {cursor : Cursor}
    (hkind : cursor.peek.kind = .eof ∨ closes cursor.peek.kind) :
    (repeated closes item).run cursor = ⟨.ok [], [], cursor.advance⟩ := by
  have hrun : runManyUntil closes (fun first => recover (item first)) cursor =
      ⟨.ok [], [], cursor.advance⟩ := by
    rw [runManyUntil]
    split
    · rfl
    · next first later hunread =>
        have hfirst : first.kind = .eof ∨ closes first.kind := by
          simpa [Cursor.peek, hunread] using hkind
        rw [if_pos hfirst]
  simp [repeated, always, manyUntil, hrun, Outcome.value]

theorem run_repeated_of_open (item : Token → Parser Diagnostic α)
    {cursor : Cursor}
    (hkind : ¬ (cursor.peek.kind = .eof ∨ closes cursor.peek.kind)) :
    (repeated closes item).run cursor =
      (((repeated closes item).run ((fromNext item).run cursor).rest).map
        (((fromNext item).run cursor).result.toOption.toList ++ ·)).after
          ((fromNext item).run cursor).reported := by
  have hrun : runManyUntil closes (fun first => recover (item first)) cursor =
      ((runManyUntil closes (fun first => recover (item first))
          ((fromNext item).run cursor).rest).map
        (((fromNext item).run cursor).result.toOption.toList ++ ·)).after
          ((fromNext item).run cursor).reported := by
    rw [runManyUntil]
    split
    · next hunread => simp [Cursor.peek, hunread] at hkind
    · next first later hunread =>
        have hpeek : cursor.peek = first := by simp [Cursor.peek, hunread]
        rw [hpeek] at hkind
        rw [if_neg hkind, run_fromNext, hpeek]
        simp only [run_recover]
        rfl
  simp only [repeated, always, manyUntil, hrun]
  generalize runManyUntil closes _ _ = others
  obtain ⟨⟨e⟩ | values, diagnostics, rest⟩ := others
  · exact e.elim
  · rfl

theorem reads_repeated_nil
    (hkind : nextKind tokens = .eof ∨ closes (nextKind tokens)) :
    (repeated closes item).Reads False tokens [] tokens.tail := by
  intro cursor hat
  rw [← hat.peek_kind] at hkind
  exact Or.inl ⟨id, cursor.advance, run_repeated_of_closes item hkind,
    hat.advance⟩

theorem reads_repeated_cons {others : List α}
    (hkind : ¬ (nextKind tokens = .eof ∨ closes (nextKind tokens)))
    (hitem : (fromNext item).Reads short tokens a tokens')
    (hothers : (repeated closes item).Reads short' tokens' others rest) :
    (repeated closes item).Reads (short ∨ short') tokens
    (a :: others) rest := by
  intro cursor hat
  rw [← hat.peek_kind] at hkind
  rw [run_repeated_of_open item hkind]
  rcases hitem cursor hat with
    ⟨henough, middle, hrun, hmiddle⟩ | ⟨hshort, hdeep⟩
  · rw [hrun]
    rcases hothers middle hmiddle with
      ⟨henough', after, hrun', hafter⟩ | ⟨hshort', hdeep⟩
    · refine Or.inl ⟨by simp [henough, henough'], after, ?_, hafter⟩
      simp only [hrun']
      rfl
    · refine Or.inr ⟨Or.inr hshort', ?_⟩
      obtain ⟨diagnostic, hmem, hproblem⟩ := hdeep
      refine ⟨diagnostic, ?_, hproblem⟩
      rw [Outcome.reported_after, Outcome.reported_map]
      exact List.mem_append_right _ hmem
  · refine Or.inr ⟨Or.inl hshort, ?_⟩
    obtain ⟨diagnostic, hmem, hproblem⟩ := hdeep
    refine ⟨diagnostic, ?_, hproblem⟩
    rw [Outcome.reported_after]
    exact List.mem_append_left _ hmem

end Repetition

section Extension

variable {cursor : Cursor} {strength : Precedence} {extension : Extension}

theorem run_extensionAbove_of_le
    (hstop : cursor.peek.kind.precedence.rank ≤ strength.rank) :
    (extensionAbove strength).run cursor = ⟨.ok none, [], cursor⟩ := by
  have hnot : ¬ strength < cursor.peek.kind.precedence := Nat.not_lt.2 hstop
  simp [extensionAbove, peek, continueWith, Outcome.after, hnot]

theorem run_extensionAbove_of_lt
    (hext : cursor.peek.kind.extension? = some extension)
    (hstrength : strength.rank < cursor.peek.kind.precedence.rank) :
    (extensionAbove strength).run cursor =
      ⟨.ok (some extension), [], cursor⟩ := by
  have hlt : strength < cursor.peek.kind.precedence := hstrength
  simp [extensionAbove, peek, continueWith, Outcome.after, hext, hlt]

/-- An expression ends in front of a token that binds no more tightly than what
the expression is an operand of. -/
theorem run_extend_of_le (levels : Nat) (left : Expr)
    (hstop : cursor.peek.kind.precedence.rank ≤ strength.rank) :
    (extend levels strength left).run cursor = ⟨.ok left, [], cursor⟩ := by
  rw [extend, run_bind, run_extensionAbove_of_le hstop]
  rfl

theorem run_extend_zero (left : Expr)
    (hext : cursor.peek.kind.extension? = some extension)
    (hstrength : strength.rank < cursor.peek.kind.precedence.rank) :
    (extend 0 strength left).run cursor = tooDeep.run cursor := by
  rw [extend, run_bind, run_extensionAbove_of_lt hext hstrength]
  rfl

theorem run_extend_succ (levels : Nat) (left : Expr)
    (hext : cursor.peek.kind.extension? = some extension)
    (hstrength : strength.rank < cursor.peek.kind.precedence.rank) :
    (extend (levels + 1) strength left).run cursor =
      (extended (expr levels) left extension >>= extend levels strength).run
        cursor.advance := by
  rw [extend, run_bind, run_extensionAbove_of_lt hext hstrength]
  rfl

theorem tooDeep_run {α : Type} (cursor : Cursor) :
    ((tooDeep : Parser Diagnostic α).run cursor).TooDeep :=
  ⟨_, List.mem_singleton_self _, rfl⟩

end Extension

section Clauses

theorem ext_run {parser parser' : Parser ε α}
    (h : ∀ cursor, parser.run cursor = parser'.run cursor) :
    parser = parser' := by
  obtain ⟨run, hrun⟩ := parser
  obtain ⟨run', hrun'⟩ := parser'
  obtain rfl : run = run' := funext h
  rfl

instance : LawfulMonad (Parser ε) := by
  refine LawfulMonad.mk' _ ?_ ?_ ?_
  · intro α parser
    refine ext_run fun cursor => ?_
    change continueWith (fun a => pure (id a)) (parser.run cursor) =
      parser.run cursor
    rw [continueWith_pure]
    obtain ⟨⟨e⟩ | a, diagnostics, rest⟩ := parser.run cursor <;> rfl
  · intro α β a next
    rfl
  · intro α β γ first second third
    refine ext_run fun cursor => ?_
    change continueWith third (continueWith second (first.run cursor)) =
      continueWith (fun a => second a >>= third) (first.run cursor)
    obtain ⟨⟨e⟩ | a, diagnostics, rest⟩ := first.run cursor
    · rfl
    · change continueWith third (((second a).run rest).after diagnostics) =
        (continueWith third ((second a).run rest)).after diagnostics
      obtain ⟨⟨e⟩ | b, diagnostics', rest'⟩ := (second a).run rest
      · rfl
      · simp [continueWith, Outcome.after, List.append_assoc]

/-- `let NAME = E`, `return E` or `E`: a statement up to its semicolon. -/
def clause (expr : ExprParser) (first : Token) : Parser Diagnostic Statement :=
  if first.kind = .letWord then do
    let name ← expect .ident
    let _ ← expect .assign
    pure (.binding name.literal (← operand expr .lowest))
  else if first.kind = .returnWord then do
    pure (.returning (← operand expr .lowest))
  else do
    pure (.expression (← expr .lowest first))

/-- A statement is a clause, and behind it a semicolon if there is one. -/
theorem statement_eq (expr : ExprParser) (first : Token) :
    statement expr first = (do
      let read ← clause expr first
      let _ ← skip .semicolon
      pure read) := by
  rw [statement, clause]
  split
  · simp only [bind_assoc]
  · split
    · simp only [bind_assoc]
    · simp only [bind_assoc]

end Clauses

end Parser

end Scriptlet
