/-
Numerals: texts of digits and nothing else, of any length.  A numeral is worth
what its digits are worth at their places, so zeros in front of it do not count.
As a source text it is a single integer literal, which is read as its worth up
to the greatest integer and refused as it stands beyond that.
-/
import Scriptlet.Proofs.Arithmetic
import Scriptlet.Proofs.Parser.Finished
import Scriptlet.Proofs.Token.Written

namespace Scriptlet

/-- A text that is a number: digits, at least one of them. -/
structure IsNumeral (text : String) : Prop where
  ne_nil : text.toList ≠ []
  isDigit : ∀ c ∈ text.toList, c.isDigit

instance (text : String) : Decidable (IsNumeral text) :=
  decidable_of_iff (text.toList ≠ [] ∧ text.toList.all Char.isDigit)
    ⟨fun ⟨hne, hdigits⟩ => ⟨hne, List.all_eq_true.1 hdigits⟩,
      fun h => ⟨h.ne_nil, List.all_eq_true.2 h.isDigit⟩⟩

namespace Integer

/-- The sum of the digits, each times the power of ten of its place. -/
def placeValue : List Char → Nat
  | [] => 0
  | c :: cs => (c.toNat - '0'.toNat) * 10 ^ cs.length + placeValue cs

/-- Adding up from the left, ten times what is there and the next digit, comes
to the same. -/
theorem ofDigitChars_eq_placeValue (digits : List Char) :
    Nat.ofDigitChars 10 digits 0 = placeValue digits := by
  induction digits with
  | nil => rfl
  | cons c cs ih =>
      rw [Nat.ofDigitChars_cons, Nat.ofDigitChars_eq_ofDigitChars_zero,
        ih, Nat.mul_zero, Nat.zero_add, Nat.mul_comm]
      rfl

theorem inRange_natCast_iff {n : Nat} : InRange n ↔ n ≤ 2 ^ 63 - 1 := by
  unfold InRange
  omega

/-- A numeral is read as its worth, and refused only for being out of range. -/
theorem ofText?_of_isNumeral {text : String} (h : IsNumeral text) :
    ofText? text = ofInt? (placeValue text.toList) := by
  rw [ofText?_of_isDigit h.isDigit, magnitude?,
    if_pos ⟨h.ne_nil, List.all_eq_true.2 h.isDigit⟩, Option.bind_some,
    ofDigitChars_eq_placeValue]

theorem isNumeral_toText {value : Int64} (h : 0 ≤ value.toInt) :
    IsNumeral (toText value) :=
  ⟨toList_toText_ne_nil h, isDigit_toText h⟩

end Integer

theorem IsNumeral.writable {text : String} (h : IsNumeral text) (line : Nat) :
    Token.Writable ⟨.int, text, line⟩ where
  not_illegal := by rintro ⟨⟩
  not_eof := by rintro ⟨⟩
  name := by rintro ⟨⟩
  number _ := ⟨h.ne_nil, h.isDigit⟩
  fixed := by rintro other ⟨⟩

/-- A numeral is one token on the first line. -/
theorem TokenStream.ofSource_of_isNumeral {text : String} (h : IsNumeral text) :
    ofSource text = ⟨[⟨.int, text, 1⟩], 1⟩ := by
  have hwritable := h.writable 1
  have hend : ∀ c ∈ ([] : List Char).head?, c = ' ' := by rintro c ⟨⟩
  have hfeeds : lineFeeds text.toList = 0 := hwritable.lineFeeds_written
  have htokens : Piece.tokens 1 (Piece.cut (text.toList ++ [])) = _ :=
    hwritable.tokens_eq hend
  rw [List.append_nil] at htokens
  rw [ofSource, htokens, hfeeds]
  simp [Piece.cut, Piece.tokens]

namespace Parser

variable {token : Token} {cursor : Cursor} {result : Except Diagnostic Expr}

/-- At the end of input, an expression comes to what its only token comes to. -/
theorem run_expr_of_primary (hend : cursor.peek.kind = .eof)
    (h : ∀ levels, (primary (expr levels) token).run cursor =
      ⟨result, [], cursor⟩)
    (strength : Precedence) :
    (expr maxNesting strength token).run cursor = ⟨result, [], cursor⟩ := by
  have hstop : cursor.peek.kind.precedence.rank ≤ strength.rank := by
    rw [hend]
    exact Nat.zero_le _
  obtain ⟨levels, hlevels⟩ : ∃ levels, maxNesting = levels + 1 :=
    Nat.exists_eq_add_one_of_ne_zero (by decide)
  rw [hlevels, expr, run_bind, h]
  cases result with
  | error e => rfl
  | ok e => exact congrArg (Outcome.after []) (run_extend_of_le levels e hstop)

theorem run_statement_of_primary (hlet : token.kind ≠ .letWord)
    (hreturn : token.kind ≠ .returnWord) (hend : cursor.peek.kind = .eof)
    (h : ∀ levels, (primary (expr levels) token).run cursor =
      ⟨result, [], cursor⟩) :
    (statement (expr maxNesting) token).run cursor =
      ⟨result.map .expression, [], cursor⟩ := by
  have hclause : (clause (expr maxNesting) token).run cursor =
      ⟨result.map .expression, [], cursor⟩ := by
    rw [clause, if_neg hlet, if_neg hreturn, run_bind,
      run_expr_of_primary hend h]
    exact continueWith_pure Statement.expression _
  have hskip : (skip .semicolon : Parser Diagnostic Bool).run cursor =
      ⟨.ok false, [], cursor⟩ :=
    run_skip_of_ne (by rw [hend]; decide)
  rw [statement_eq, run_bind, hclause]
  cases result with
  | error e => rfl
  | ok e =>
      change continueWith _ ((skip .semicolon).run cursor) = _
      rw [hskip]
      rfl

end Parser

namespace Parsed

/-- A program of one token is the statement that starts with it. -/
theorem ofStream_singleton {token : Token} (hkind : token.kind ≠ .eof)
    (endLine : Nat) :
    let outcome :=
      (Parser.statement (Parser.expr maxNesting) token).run
        ⟨[], endLine, token.line⟩
    ofStream ⟨[token], endLine⟩ =
      ⟨outcome.result.toOption.toList, outcome.reported⟩ := by
  intro outcome
  have hopen :
      ¬ ((Cursor.ofStream ⟨[token], endLine⟩).peek.kind = .eof ∨
        false = true) :=
    fun h => h.elim hkind Bool.false_ne_true
  -- The only token has been read, and no parser puts a token back.
  have hrest : outcome.rest.peek.kind = .eof := by
    have hle : outcome.rest.remaining ≤ 0 := Parser.remaining_le _ _
    have hnil : outcome.rest.unread = [] :=
      List.length_eq_zero_iff.1 (Nat.le_zero.1 hle)
    rw [Cursor.peek, hnil]
    rfl
  have hrun := Parser.run_sentences ⟨[token], endLine⟩
  rw [Parser.sentences, Parser.run_repeated_of_open _ hopen,
    Parser.run_fromNext] at hrun
  change ((Parser.repeated _ _).run outcome.rest |>.map
    (outcome.result.toOption.toList ++ ·) |>.after outcome.reported) = _ at hrun
  rw [Parser.run_repeated_of_closes _ (Or.inl hrest)] at hrun
  injection hrun with hresult hdiagnostics _
  injection hresult with hprogram
  calc ofStream ⟨[token], endLine⟩
    _ = ⟨outcome.result.toOption.toList ++ [], outcome.reported ++ []⟩ :=
        congrArg₂ Parsed.mk hprogram.symm hdiagnostics.symm
    _ = ⟨outcome.result.toOption.toList, outcome.reported⟩ := by
        rw [List.append_nil, List.append_nil]

/-- An integer literal alone is a program if it is read, and else an error. -/
theorem ofStream_integer {token : Token} (hkind : token.kind = .int)
    (endLine : Nat) :
    ofStream ⟨[token], endLine⟩ =
      (Integer.ofText? token.literal).elim
        ⟨[], [⟨.invalidInteger token.literal, token.line⟩]⟩
        fun value => ⟨[.expression (.integer value)], []⟩ := by
  have hlet : token.kind ≠ .letWord := by rw [hkind]; decide
  have hreturn : token.kind ≠ .returnWord := by rw [hkind]; decide
  have heof : token.kind ≠ .eof := by rw [hkind]; decide
  let cursor : Cursor := ⟨[], endLine, token.line⟩
  rw [ofStream_singleton heof]
  cases hvalue : Integer.ofText? token.literal with
  | some value =>
      have hprimary : ∀ levels,
          (Parser.primary (Parser.expr levels) token).run cursor =
            ⟨.ok (.integer value), [], cursor⟩ := by
        intro levels
        simp only [Parser.primary, hkind, TokenKind.opening?, hvalue,
          Parser.run_pure]
      rw [Parser.run_statement_of_primary hlet hreturn rfl hprimary]
      rfl
  | none =>
      have hprimary : ∀ levels,
          (Parser.primary (Parser.expr levels) token).run cursor =
            ⟨.error ⟨.invalidInteger token.literal, token.line⟩,
              [], cursor⟩ := by
        intro levels
        simp only [Parser.primary, hkind, TokenKind.opening?, hvalue]
        rfl
      rw [Parser.run_statement_of_primary hlet hreturn rfl hprimary]
      rfl

/-- The source text of a numeral is read whole, or refused whole. -/
theorem ofSource_of_isNumeral {text : String} (h : IsNumeral text) :
    ofSource text =
      (Integer.ofText? text).elim ⟨[], [⟨.invalidInteger text, 1⟩]⟩
      fun value => ⟨[.expression (.integer value)], []⟩ := by
  rw [ofSource, TokenStream.ofSource_of_isNumeral h, ofStream_integer rfl]

/-- Integer literals are read exactly, up to the limit.  However many digits
there are, and zeros in front, they are read as the integer they are worth if
that is at most the greatest one; otherwise there is no statement, and the one
diagnostic has the digits as they stand.  Every integer that is not negative is
read back from its canonical text. -/
theorem ofSource_numeral :
    (∀ text : String, IsNumeral text →
      (Integer.placeValue text.toList ≤ 2 ^ 63 - 1 →
        ∃ value : Int64, value.toInt = Integer.placeValue text.toList ∧
          ofSource text = ⟨[.expression (.integer value)], []⟩) ∧
      (2 ^ 63 - 1 < Integer.placeValue text.toList →
        ofSource text = ⟨[], [⟨.invalidInteger text, 1⟩]⟩)) ∧
      ∀ value : Int64, 0 ≤ value.toInt →
        ofSource (Expr.integer value).render =
          ⟨[.expression (.integer value)], []⟩ := by
  refine ⟨fun text h => ⟨?_, ?_⟩, ?_⟩
  · intro hle
    obtain ⟨value, hvalue⟩ :=
      Integer.exists_toInt_eq (Integer.inRange_natCast_iff.2 hle)
    refine ⟨value, hvalue, ?_⟩
    rw [ofSource_of_isNumeral h, Integer.ofText?_of_isNumeral h,
      Integer.ofInt?_eq_some_iff.2 hvalue, Option.elim_some]
  · intro hlt
    have hrange : ¬ Integer.InRange (Integer.placeValue text.toList) :=
      fun h => Nat.not_le_of_lt hlt (Integer.inRange_natCast_iff.1 h)
    rw [ofSource_of_isNumeral h, Integer.ofText?_of_isNumeral h,
      Integer.ofInt?_eq_none_iff_not_inRange.2 hrange, Option.elim_none]
  · intro value hvalue
    rw [Expr.render, ofSource_of_isNumeral (Integer.isNumeral_toText hvalue),
      Integer.ofText?_toText hvalue, Option.elim_some]

/-- The greatest integer with zeros in front of it, the one behind it, and the
greatest integer printed. -/
theorem ofSource_numeral_limit :
    let greatest : Program := [.expression (.integer 9223372036854775807)]
    IsNumeral "0009223372036854775807" ∧ ofSource "0009223372036854775807" =
      ⟨greatest, []⟩ ∧
      IsNumeral "9223372036854775808" ∧ ofSource "9223372036854775808" =
        ⟨[], [⟨.invalidInteger "9223372036854775808", 1⟩]⟩ ∧
      ofSource (Expr.integer 9223372036854775807).render = ⟨greatest, []⟩ := by
  intro greatest
  have hzeros : IsNumeral "0009223372036854775807" := by decide
  have hbeyond : IsNumeral "9223372036854775808" := by decide
  obtain ⟨hread, hprinted⟩ := ofSource_numeral
  obtain ⟨value, hvalue, hparsed⟩ := (hread _ hzeros).1 (by decide)
  obtain rfl : value = 9223372036854775807 :=
    Int64.toInt_inj.1 (hvalue.trans (by decide))
  exact ⟨hzeros, hparsed, hbeyond, (hread _ hbeyond).2 (by decide),
    hprinted _ (by decide)⟩

end Parsed

end Scriptlet
