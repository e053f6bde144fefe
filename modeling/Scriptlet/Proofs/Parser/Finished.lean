/-
Source text that is finished: it is read without a diagnostic, every brace is
closed, and the last token is a semicolon.  Nothing that follows it is taken
into it, so a text behind a finished one is read as if it stood alone, only
further down.

The parser looks one token ahead.  As long as it has not come to the end, it
cannot tell what stands behind the tokens it looks at.  At the end of a finished
text it has just read a semicolon that ends a statement, and has not looked any
further.
-/
import Scriptlet.Proofs.Parser.Edges
import Scriptlet.Proofs.Parser.Parallel
import Scriptlet.Proofs.Parser.Sound
import Scriptlet.Proofs.Token.Joined

namespace Scriptlet

/-- The same diagnostic so many lines further down. -/
def Diagnostic.raise (lines : Nat) (diagnostic : Diagnostic) : Diagnostic :=
  { diagnostic with line := diagnostic.line + lines }

namespace Pairing

/-- A stream and the same stream further down. -/
def raised (lines : Nat) : Pairing where
  cursors cursor cursor' :=
    cursor'.unread = cursor.unread.map (Token.raise lines) ∧
    cursor'.endLine = cursor.endLine + lines ∧
      cursor'.line = cursor.line + lines
  lines line line' := line' = line + lines
  lost _ := False

theorem peek_raised {lines : Nat} {cursor cursor' : Cursor}
    (h : (raised lines).cursors cursor cursor') :
    cursor'.peek = cursor.peek.raise lines := by
  obtain ⟨hunread, hend, _⟩ := h
  cases htokens : cursor.unread with
  | nil => simp [Cursor.peek, hunread, htokens, hend, Token.raise]
  | cons token later => simp [Cursor.peek, hunread, htokens]

theorem raised_lawful (lines : Nat) : (raised lines).Lawful where
  peek h := by
    rw [peek_raised h]
    exact ⟨rfl, rfl, rfl⟩
  line h := h.2.2
  advance {cursor cursor'} h := by
    right
    refine ⟨?_, h.2.1, congrArg Token.line (peek_raised h)⟩
    simp [Cursor.advance, h.1]
  lost h _ := h

/-- A stream that is not at its end, and the same stream with `more` behind
it. -/
def prolonged (more : List Token) (endLine : Nat) : Pairing where
  cursors cursor cursor' := cursor.unread ≠ [] ∧
    (∀ token ∈ cursor.unread, token.kind ≠ .eof) ∧
    cursor'.unread = cursor.unread ++ more ∧ cursor'.endLine = endLine
  lines _ _ := True
  lost cursor := cursor.unread = []

theorem peek_prolonged {more : List Token} {endLine : Nat}
    {cursor cursor' : Cursor}
    (h : (prolonged more endLine).cursors cursor cursor') :
    cursor'.peek = cursor.peek := by
  obtain ⟨hne, _, hunread, _⟩ := h
  obtain ⟨token, later, htokens⟩ := List.exists_cons_of_ne_nil hne
  simp [Cursor.peek, hunread, htokens]

theorem prolonged_lawful (more : List Token) (endLine : Nat) :
    (prolonged more endLine).Lawful where
  peek h := by
    rw [peek_prolonged h]
    exact ⟨rfl, rfl, trivial⟩
  line _ := trivial
  advance {cursor cursor'} h := by
    obtain ⟨hne, hkinds, hunread, hend⟩ := h
    obtain ⟨token, later, htokens⟩ := List.exists_cons_of_ne_nil hne
    by_cases hlater : later = []
    · left
      change cursor.unread.tail = []
      rw [htokens, List.tail_cons, hlater]
    · right
      refine ⟨?_, ?_, ?_, hend⟩
      · simpa [Cursor.advance, htokens] using hlater
      · intro other hother
        exact hkinds other (List.mem_of_mem_tail hother)
      · simp [Cursor.advance, hunread, htokens]
  lost h hle := by
    have hzero : List.length _ = 0 := List.length_eq_zero_iff.2 h
    exact List.length_eq_zero_iff.1
      (Nat.le_zero.1 (Nat.le_trans hle (Nat.le_of_eq hzero)))

end Pairing

namespace Parser

/-- The statements of a program, read where failing is allowed. -/
def sentences : Parser Diagnostic Program :=
  repeated (fun _ => false) (statement (expr maxNesting))

theorem run_sentences (stream : TokenStream) :
    sentences.run (.ofStream stream) =
      ⟨.ok (Parsed.ofStream stream).program,
        (Parsed.ofStream stream).diagnostics,
        (program.run (.ofStream stream)).rest⟩ := rfl

/-- The line of the token read last has no part in what statements are read. -/
theorem run_repeated_congr {α : Type} (closes : TokenKind → Bool)
    (item : Token → Parser Diagnostic α) {cursor cursor' : Cursor}
    (hunread : cursor.unread = cursor'.unread)
    (hend : cursor.endLine = cursor'.endLine) :
    (repeated closes item).run cursor = (repeated closes item).run cursor' := by
  have hpeek : cursor.peek = cursor'.peek := by
    simp [Cursor.peek, hunread, hend]
  have hadvance : cursor.advance = cursor'.advance := by
    simp [Cursor.advance, hunread, hend, hpeek]
  have hfirst : (fromNext item).run cursor = (fromNext item).run cursor' := by
    rw [run_fromNext, run_fromNext, hpeek, hadvance]
  by_cases hkind : cursor'.peek.kind = .eof ∨ closes cursor'.peek.kind
  · rw [run_repeated_of_closes item hkind,
      run_repeated_of_closes item (hpeek ▸ hkind), hadvance]
  · rw [run_repeated_of_open item hkind,
      run_repeated_of_open item (hpeek ▸ hkind), hfirst]

/-- What is left of a finished text in front of a statement. -/
structure Closed (tokens : List Token) : Prop where
  kinds : ∀ token ∈ tokens, token.kind ≠ .eof
  braces : netBraces tokens ≤ 0
  last : lastKind .semicolon tokens = .semicolon

namespace Closed

variable {tokens rest : List Token}

theorem not_whole (h : Closed tokens) : ¬ WholeBraces tokens :=
  fun hwhole => Int.not_lt.2 h.braces (hwhole.net_pos _ h.last)

theorem rest_of_read (read : List Token) (h : Closed (read ++ rest))
    (hread : 0 ≤ netBraces read) : Closed rest where
  kinds token htoken := h.kinds token (List.mem_append_right read htoken)
  braces := by
    have hbraces := h.braces
    rw [netBraces_append] at hbraces
    omega
  last := by
    have hlast := h.last
    rw [lastKind_append] at hlast
    exact lastKind_of_lastKind hlast

end Closed

section Prolonged

variable {cursor cursor' after : Cursor} {more : List Token} {endLine : Nat}

/-- A clause at the start of a closed text ends in front of another token, so it
is read alike with more behind the text. -/
theorem run_clause_append {s : Statement} (hclosed : Closed cursor.unread)
    (hcursors : (Pairing.prolonged more endLine).cursors cursor cursor')
    (hrun : (fromNext (clause (expr maxNesting))).run cursor =
      ⟨.ok s, [], after⟩) :
    ∃ after', (fromNext (clause (expr maxNesting))).run cursor' =
      ⟨.ok s, [], after'⟩ ∧
      (Pairing.prolonged more endLine).cursors after after' ∧
        Closed after.unread := by
  have hat : cursor.At cursor.unread := ⟨[], by simp, hclosed.kinds, by simp⟩
  obtain ⟨rest, hrest, ⟨derivation⟩, _⟩ :=
    yields_clause (readsOperands_expr (fun _ => id) maxNesting) _ _ _ _ hat hrun
  obtain ⟨read, hread, hbraces⟩ := derivation.braces
  obtain ⟨ends, hafter, _, hends⟩ := hrest
  have hne : after.unread ≠ [] := by
    intro hnil
    rw [hnil] at hafter
    obtain ⟨rfl, _⟩ := List.append_eq_nil_iff.1 hafter.symm
    rw [List.append_nil] at hread
    exact hclosed.not_whole (hread ▸ hbraces)
  have hR := Pairing.prolonged_lawful more endLine
  have hfollows := hR.follows_fromNext
    (fun _ _ hfirst => (hR.respects_expr maxNesting).clause hR hfirst) hcursors
  rw [hrun] at hfollows
  rcases hfollows with hlost | ⟨hresult, hdiagnostics, hcursors'⟩
  · exact absurd hlost hne
  have hnone : ends = [] := by
    cases ends with
    | nil => rfl
    | cons token ends =>
        refine absurd (hends token List.mem_cons_self) (hcursors'.2.1 token ?_)
        simp [hafter]
  rw [hnone, List.append_nil] at hafter
  generalize (fromNext (clause (expr maxNesting))).run cursor' = outcome' at *
  obtain ⟨result', diagnostics', after'⟩ := outcome'
  cases hresult with
  | ok hs =>
      subst hs
      cases hdiagnostics
      rw [hread] at hclosed
      exact ⟨after', rfl, hcursors',
        hafter ▸ hclosed.rest_of_read read hbraces.net⟩

/-- A statement may come to the end, but only with its semicolon, and what is
behind that is not looked at. -/
theorem run_statement_append {s : Statement} (hclosed : Closed cursor.unread)
    (hcursors : (Pairing.prolonged more endLine).cursors cursor cursor')
    (hrun : (fromNext (statement (expr maxNesting))).run cursor =
      ⟨.ok s, [], after⟩) :
    ∃ after', (fromNext (statement (expr maxNesting))).run cursor' =
      ⟨.ok s, [], after'⟩ ∧
      after'.unread = after.unread ++ more ∧ after'.endLine = endLine ∧
      Closed after.unread := by
  rw [run_fromNext, statement_eq] at hrun
  obtain ⟨s, middle, hclause, htail⟩ := quiet_bind hrun
  obtain ⟨skipped, last, hskip, hpure⟩ := quiet_bind htail
  obtain ⟨rfl, rfl⟩ := quiet_pure hpure
  obtain ⟨middle', hclause', hmiddle, hclosed'⟩ :=
    run_clause_append hclosed hcursors hclause
  have hpeek : middle'.peek = middle.peek := Pairing.peek_prolonged hmiddle
  obtain ⟨hne, _, hunread, hend⟩ := hmiddle
  have hstatement : (fromNext (statement (expr maxNesting))).run cursor' =
      (do let _ ← skip .semicolon; pure s : Parser Diagnostic Statement).run
        middle' := by
    rw [run_fromNext] at hclause' ⊢
    rw [statement_eq, run_bind, hclause']
    rfl
  rw [hstatement, run_bind]
  rcases quiet_skip hskip with ⟨hkind, _, rfl⟩ | ⟨hkind, _, rfl⟩
  · rw [run_skip_of_eq (hpeek ▸ hkind)]
    obtain ⟨token, later, htokens⟩ := List.exists_cons_of_ne_nil hne
    have htoken : token.kind = .semicolon := by
      simpa [Cursor.peek, htokens] using hkind
    refine ⟨middle'.advance, rfl, ?_, hend, ?_⟩
    · simp [Cursor.advance, hunread, htokens]
    · rw [htokens] at hclosed'
      simp only [Cursor.advance, htokens, List.tail_cons]
      exact Closed.rest_of_read [token] hclosed'
        (by simp [htoken, TokenKind.brace])
  · rw [run_skip_of_ne (hpeek ▸ hkind)]
    exact ⟨middle', rfl, hunread, hend, hclosed'⟩

/-- Behind the statements of a closed text, reading goes on with what
follows. -/
theorem run_sentences_append {ss : Program} (hclosed : Closed cursor.unread)
    (hunread : cursor'.unread = cursor.unread ++ more)
    (hrun : sentences.run cursor = ⟨.ok ss, [], after⟩) :
    ∃ behind : Cursor, behind.unread = more ∧ behind.endLine = cursor'.endLine ∧
      sentences.run cursor' = (sentences.run behind).map (ss ++ ·) := by
  induction hremaining : cursor.remaining using Nat.strongRecOn
    generalizing cursor cursor' ss with
  | ind remaining ih =>
      cases htokens : cursor.unread with
      | nil =>
          have hkind : cursor.peek.kind = .eof := by simp [Cursor.peek, htokens]
          rw [sentences, run_repeated_of_closes _ (Or.inl hkind)] at hrun
          cases hrun
          refine ⟨cursor', by rw [hunread, htokens, List.nil_append], rfl, ?_⟩
          obtain ⟨⟨e⟩ | others, diagnostics, rest⟩ :=
            sentences.run cursor' <;> rfl
      | cons token later =>
          have hcursors :
              (Pairing.prolonged more cursor'.endLine).cursors cursor cursor' :=
            ⟨by simp [htokens], hclosed.kinds, hunread, rfl⟩
          have hkind : cursor.peek.kind ≠ .eof := by
            have hpeek : cursor.peek = token := by simp [Cursor.peek, htokens]
            exact hpeek ▸ hclosed.kinds token (htokens ▸ List.mem_cons_self)
          have hopen : ¬ (cursor.peek.kind = .eof ∨ false = true) := by
            simp [hkind]
          have hopen' : ¬ (cursor'.peek.kind = .eof ∨ false = true) :=
            Pairing.peek_prolonged hcursors ▸ hopen
          obtain ⟨s, others, middle, rfl, hfirst, hothers⟩ :=
            quiet_repeated hopen hrun
          obtain ⟨middle', hfirst', hunread', hend', hclosed'⟩ :=
            run_statement_append hclosed hcursors hfirst
          have hless :=
            remaining_fromNext_lt (statement (expr maxNesting)) hkind
          rw [hfirst, hremaining] at hless
          obtain ⟨behind, hbehind, hend, hrest⟩ :=
            ih _ hless hclosed' hunread' hothers rfl
          refine ⟨behind, hbehind, hend.trans hend', ?_⟩
          have hstep : sentences.run cursor' =
              (sentences.run middle').map ([s] ++ ·) := by
            rw [sentences, run_repeated_of_open _ hopen', hfirst']
            rfl
          rw [hstep, hrest]
          obtain ⟨⟨e⟩ | others, diagnostics, rest⟩ :=
            sentences.run behind <;> rfl

end Prolonged

end Parser

theorem Pairing.eq_of_raised {lines : Nat}
    {diagnostics diagnostics' : List Diagnostic}
    (h : List.Forall₂ (raised lines).Diagnostics diagnostics diagnostics') :
    diagnostics' = diagnostics.map (Diagnostic.raise lines) := by
  induction h with
  | nil => rfl
  | @cons diagnostic diagnostic' _ _ hfirst _ ih =>
      have hraise : diagnostic' = diagnostic.raise lines := by
        obtain ⟨problem', line'⟩ := diagnostic'
        exact congrArg₂ Diagnostic.mk hfirst.problem.symm hfirst.line
      rw [ih, hraise, List.map_cons]

namespace Parsed

/-- The same tokens further down are read alike. -/
theorem ofStream_raise (lines : Nat) (stream : TokenStream) :
    ofStream (stream.raise lines) =
      ⟨(ofStream stream).program,
        (ofStream stream).diagnostics.map (Diagnostic.raise lines)⟩ := by
  have hcursors : (Pairing.raised lines).cursors (.ofStream stream)
      (.ofStream (stream.raise lines)) := ⟨rfl, rfl, rfl⟩
  obtain ⟨hprogram, hdiagnostics⟩ :=
    (Pairing.raised_lawful lines).ofStream (fun _ hlost => hlost) hcursors
  rw [hprogram, ← Pairing.eq_of_raised hdiagnostics]

/-- A stream behind a closed one is read as if it stood alone. -/
theorem ofStream_append {front : TokenStream}
    (hclosed : Parser.Closed front.tokens)
    (hquiet : (ofStream front).diagnostics = []) (back : TokenStream) :
    ofStream ⟨front.tokens ++ back.tokens, back.endLine⟩ =
      ⟨(ofStream front).program ++ (ofStream back).program,
        (ofStream back).diagnostics⟩ := by
  have hfront := Parser.run_sentences front
  rw [hquiet] at hfront
  let joined : TokenStream := ⟨front.tokens ++ back.tokens, back.endLine⟩
  have hunread : (Cursor.ofStream joined).unread =
      front.tokens ++ back.tokens := rfl
  obtain ⟨behind, hbehind, hend, hrun⟩ :=
    Parser.run_sentences_append hclosed hunread hfront
  have hback : Parser.sentences.run behind =
      Parser.sentences.run (.ofStream back) :=
    Parser.run_repeated_congr _ _ hbehind hend
  rw [hback, Parser.run_sentences, Parser.run_sentences] at hrun
  injection hrun with hresult hdiagnostics _
  injection hresult with hprogram
  change (⟨(ofStream joined).program,
    (ofStream joined).diagnostics⟩ : Parsed) = _
  rw [hprogram, hdiagnostics]

end Parsed

/-- A source text that what follows cannot run into. -/
structure Finished (source : String) : Prop where
  quiet : (Parsed.ofSource source).diagnostics = []
  paired : (TokenStream.ofSource source).tokens.countP (·.kind = .lbrace) =
    (TokenStream.ofSource source).tokens.countP (·.kind = .rbrace)
  terminated :
    ∀ token ∈ (TokenStream.ofSource source).tokens.getLast?,
      token.kind = .semicolon

theorem netBraces_eq (tokens : List Token) :
    netBraces tokens =
      tokens.countP (·.kind = .lbrace) - tokens.countP (·.kind = .rbrace) := by
  induction tokens with
  | nil => rfl
  | cons token tokens ih =>
      rw [netBraces_cons, ih, List.countP_cons, List.countP_cons]
      cases token.kind <;> simp [TokenKind.brace] <;> omega

theorem lastKind_of_getLast? {tokens : List Token} {kind : TokenKind}
    (h : ∀ token ∈ tokens.getLast?, token.kind = kind) :
    lastKind kind tokens = kind := by
  rcases List.eq_nil_or_concat tokens with rfl | ⟨front, token, rfl⟩
  · rfl
  · simpa using h token (by simp)

theorem Finished.closed {source : String} (h : Finished source) :
    Parser.Closed (TokenStream.ofSource source).tokens where
  kinds token htoken :=
    (Piece.wellSpelled_tokens source.toList 1 token htoken).2
  braces := by
    rw [netBraces_eq, h.paired]
    omega
  last := lastKind_of_getLast? h.terminated

/-- A text behind a finished one is read as if it stood alone, only further
down. -/
theorem Parsed.ofSource_append {front : String} (h : Finished front)
    (back : String) :
    ofSource (front ++ "\n" ++ back) =
      ⟨(ofSource front).program ++ (ofSource back).program,
        (ofSource back).diagnostics.map
        (Diagnostic.raise (linesBefore front))⟩ := by
  have hback := ofStream_raise (linesBefore front) (.ofSource back)
  rw [ofSource, TokenStream.ofSource_append front back h.terminated,
    ofStream_append h.closed h.quiet, hback]
  rfl

/-- Whether a text behind a finished one is finished is a matter of that text
alone. -/
theorem Finished.append_iff {front : String} (h : Finished front)
    (back : String) : Finished (front ++ "\n" ++ back) ↔ Finished back := by
  have hparsed := congrArg Parsed.diagnostics (Parsed.ofSource_append h back)
  have htokens :=
    congrArg TokenStream.tokens
      (TokenStream.ofSource_append front back h.terminated)
  have hcount (kind : TokenKind) :
      (TokenStream.ofSource (front ++ "\n" ++ back)).tokens.countP
        (·.kind = kind) =
        (TokenStream.ofSource front).tokens.countP (·.kind = kind) +
          (TokenStream.ofSource back).tokens.countP (·.kind = kind) := by
    rw [htokens, List.countP_append, TokenStream.raise, List.countP_map]
    rfl
  have hlast :
      (∀ token ∈ (TokenStream.ofSource (front ++ "\n" ++ back)).tokens.getLast?,
        token.kind = .semicolon) ↔
      ∀ token ∈ (TokenStream.ofSource back).tokens.getLast?,
        token.kind = .semicolon := by
    have hfront := h.terminated
    rw [htokens, List.getLast?_append, TokenStream.raise, List.getLast?_map]
    cases (TokenStream.ofSource back).tokens.getLast? with
    | none => simpa using hfront
    | some token => simp [Token.raise]
  have hbraces := h.paired
  constructor
  · rintro ⟨hquiet, hpaired, hterminated⟩
    rw [hparsed, List.map_eq_nil_iff] at hquiet
    rw [hcount, hcount] at hpaired
    exact ⟨hquiet, by omega, hlast.1 hterminated⟩
  · rintro ⟨hquiet, hpaired, hterminated⟩
    refine ⟨?_, ?_, hlast.2 hterminated⟩
    · rw [hparsed, hquiet, List.map_nil]
    · rw [hcount, hcount]
      omega

/-- Reading distributes over finished text.  Whatever stands behind a finished
text, malformed or not, the statements are those of the two texts, and the
diagnostics are those of the second one, as many lines further down as it
starts.  The whole is finished if the second text is, so the same goes for any
number of finished texts. -/
theorem Parsed.ofSource_distributes {front : String} (h : Finished front)
    (back : String) :
    let whole := ofSource (front ++ "\n" ++ back)
    whole.program = (ofSource front).program ++ (ofSource back).program ∧
      whole.diagnostics = (ofSource back).diagnostics.map
        (fun diagnostic =>
          ⟨diagnostic.problem,
            diagnostic.line + (lineFeeds front.toList + 1)⟩) ∧
      (Finished (front ++ "\n" ++ back) ↔ Finished back) := by
  intro whole
  have hwhole : whole = _ := ofSource_append h back
  exact ⟨congrArg Parsed.program hwhole, congrArg Parsed.diagnostics hwhole,
    h.append_iff back⟩

/-- A hash and a comment on two lines, and behind them a binding without a name
and a string that is not closed. -/
theorem Parsed.ofSource_distributes_malformed :
    let front := "\x7b1: 2\x7d;\n// let"
    let whole := ofSource (front ++ "\n" ++ "let;\n\"a")
    Finished front ∧ whole.program = (ofSource front).program ∧
      whole.diagnostics =
        [⟨.expectedToken .ident .semicolon, 3⟩, ⟨.noExpression .semicolon, 3⟩,
          ⟨.illegalToken Piece.unterminated, 4⟩] := by
  intro front whole
  have hfront : Finished front :=
    ⟨by decide +kernel, by decide +kernel, by decide +kernel⟩
  obtain ⟨hprogram, hdiagnostics, -⟩ := ofSource_distributes hfront "let;\n\"a"
  have hnone : (ofSource "let;\n\"a").program = [] := by decide +kernel
  have hmalformed : (ofSource "let;\n\"a").diagnostics =
      [⟨.expectedToken .ident .semicolon, 1⟩, ⟨.noExpression .semicolon, 1⟩,
        ⟨.illegalToken Piece.unterminated, 2⟩] := by
    decide +kernel
  refine ⟨hfront, ?_, ?_⟩
  · rw [hprogram, hnone, List.append_nil]
  · rw [hdiagnostics, hmalformed]
    decide +kernel

/-- Finished lines and a last one behind them are read line by line. -/
theorem Parsed.ofSource_lines {lines : List String}
    (hlines : ∀ text ∈ lines, Finished text) {last : String}
    (hlast : (ofSource last).diagnostics = []) :
    ofSource ("\n".intercalate (lines ++ [last])) =
      ⟨lines.flatMap (fun text => (ofSource text).program) ++
        (ofSource last).program, []⟩ := by
  induction lines with
  | nil =>
      rw [← hlast]
      rfl
  | cons first lines ih =>
      have hjoin : "\n".intercalate (first :: lines ++ [last]) =
          first ++ "\n" ++ "\n".intercalate (lines ++ [last]) := by
        cases lines <;> simp
      have hothers :=
        ih fun text htext => hlines text (List.mem_cons_of_mem first htext)
      rw [hjoin, ofSource_append (hlines first List.mem_cons_self), hothers,
        List.map_nil, List.flatMap_cons, List.append_assoc]

end Scriptlet
