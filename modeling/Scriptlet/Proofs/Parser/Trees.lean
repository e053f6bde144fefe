/-
The trees that the parser can build, with or without diagnostics.  Every parser
is described by what it gives; a description of the expressions read with fewer
levels becomes one of the expressions around them.
-/
import Scriptlet.Proofs.Parser.Sound
import Scriptlet.Proofs.Token.Lexed

namespace Scriptlet

/-- What is left to read is well spelled. -/
def Cursor.WellSpelled (cursor : Cursor) : Prop :=
  ∀ token ∈ cursor.unread, token.WellSpelled

theorem Cursor.WellSpelled.peek {cursor : Cursor} (h : cursor.WellSpelled) :
    cursor.peek.WellSpelled := by
  cases hunread : cursor.unread with
  | nil =>
      rw [Cursor.peek, hunread]
      exact Token.wellSpelled_of_kind (by simp) (by simp)
  | cons token later =>
      rw [Cursor.peek, hunread]
      exact h token (hunread ▸ List.mem_cons_self)

theorem Cursor.WellSpelled.advance {cursor : Cursor} (h : cursor.WellSpelled) :
    cursor.advance.WellSpelled := by
  intro token htoken
  refine h token ?_
  cases hunread : cursor.unread with
  | nil => simp [Cursor.advance, hunread] at htoken
  | cons first later =>
      simp only [Cursor.advance, hunread] at htoken
      exact List.mem_cons_of_mem first htoken

/-- What is given, if anything, is good, and what is left is well spelled. -/
def Outcome.Good {ε α : Type} (good : α → Prop) (outcome : Outcome ε α) :
    Prop :=
  outcome.rest.WellSpelled ∧ ∀ a, outcome.result = .ok a → good a

section

variable {ε α : Type} {good : α → Prop} {diagnostics : List Diagnostic}
  {rest : Cursor}

theorem Outcome.good_ok {a : α} (hrest : rest.WellSpelled) (ha : good a) :
    (⟨.ok a, diagnostics, rest⟩ : Outcome ε α).Good good := by
  refine ⟨hrest, fun a' ha' => ?_⟩
  cases ha'
  exact ha

theorem Outcome.good_error {e : ε} (hrest : rest.WellSpelled) :
    (⟨.error e, diagnostics, rest⟩ : Outcome ε α).Good good := by
  refine ⟨hrest, fun a ha => ?_⟩
  cases ha

end

theorem Outcome.Good.map {ε α β : Type} {good : α → Prop} {good' : β → Prop}
    {outcome : Outcome ε α} {f : α → β} (h : outcome.Good good)
    (hf : ∀ a, good a → good' (f a)) : (outcome.map f).Good good' := by
  refine ⟨h.1, fun b hb => ?_⟩
  cases hresult : outcome.result with
  | error e => simp [Outcome.map, hresult, Except.map] at hb
  | ok a =>
      have hfa : f a = b := by simpa [Outcome.map, hresult, Except.map] using hb
      exact hfa ▸ hf a (h.2 a hresult)

namespace Parser

variable {ε α β : Type} {good : α → Prop} {good' : β → Prop}

/-- From well spelled tokens the parser gives good values only. -/
def Gives (parser : Parser ε α) (good : α → Prop) : Prop :=
  ∀ cursor : Cursor, cursor.WellSpelled → (parser.run cursor).Good good

theorem gives_pure {a : α} (h : good a) : (pure a : Parser ε α).Gives good :=
  fun _ hcursor => Outcome.good_ok hcursor h

theorem Gives.bind {first : Parser ε α} {next : α → Parser ε β}
    (hfirst : first.Gives good) (hnext : ∀ a, good a → (next a).Gives good') :
    (first >>= next).Gives good' := by
  intro cursor hcursor
  obtain ⟨hrest, hgood⟩ := hfirst cursor hcursor
  rw [run_bind, continueWith]
  split
  · exact Outcome.good_error hrest
  · next a hresult => exact hnext a (hgood a hresult) _ hrest

theorem gives_fail (e : ε) : (fail e : Parser ε α).Gives good :=
  fun _ hcursor => Outcome.good_error hcursor

theorem gives_reject (problem : Problem) :
    (reject problem : Parser Diagnostic α).Gives good :=
  fun _ hcursor => Outcome.good_error hcursor

theorem gives_peek : (peek : Parser ε Token).Gives Token.WellSpelled :=
  fun _ hcursor => Outcome.good_ok hcursor hcursor.peek

theorem gives_next : (next : Parser ε Token).Gives Token.WellSpelled :=
  fun _ hcursor => Outcome.good_ok hcursor.advance hcursor.peek

theorem gives_skip (kind : TokenKind) :
    (skip kind : Parser ε Bool).Gives fun _ => True := by
  refine gives_peek.bind fun token _ => ?_
  split
  · exact gives_next.bind fun _ _ => gives_pure trivial
  · exact gives_pure trivial

theorem gives_expect (kind : TokenKind) :
    (expect kind).Gives fun token => token.WellSpelled ∧ token.kind = kind := by
  intro cursor hcursor
  simp only [expect, peek, run_bind, continueWith]
  split
  · next hkind => exact Outcome.good_ok hcursor.advance ⟨hcursor.peek, hkind⟩
  · exact Outcome.good_error hcursor

theorem gives_always {parser : Parser Empty α} (h : parser.Gives good) :
    (always parser : Parser ε α).Gives good := by
  intro cursor hcursor
  obtain ⟨hrest, hgood⟩ := h cursor hcursor
  refine Outcome.good_ok hrest (hgood _ ?_)
  cases hresult : (parser.run cursor).result with
  | ok a => simp [Outcome.value, hresult]
  | error e => exact e.elim

theorem gives_recover {parser : Parser Diagnostic α} (h : parser.Gives good) :
    (recover parser).Gives fun item => ∀ a ∈ item, good a := by
  intro cursor hcursor
  obtain ⟨hrest, hgood⟩ := h cursor hcursor
  simp only [recover]
  split
  · next a hresult =>
      apply Outcome.good_ok hrest
      simpa using hgood a hresult
  · apply Outcome.good_ok hrest
    simp

theorem gives_manyUntil {closes : TokenKind → Bool}
    {item : Token → Parser Empty (Option α)}
    (hitem : ∀ token, token.WellSpelled → (item token).Gives fun item =>
      ∀ a ∈ item, good a) :
    (manyUntil closes item).Gives fun items => ∀ a ∈ items, good a := by
  intro cursor hcursor
  change (runManyUntil closes item cursor).Good _
  fun_induction runManyUntil closes item cursor with
  | case1 cursor hunread =>
      exact Outcome.good_ok hcursor.advance (List.forall_mem_nil _)
  | case2 cursor token later hunread hcloses =>
      exact Outcome.good_ok hcursor.advance (List.forall_mem_nil _)
  | case3 cursor token later hunread hopen outcome ih =>
      have htoken : token.WellSpelled :=
        hcursor token (hunread ▸ List.mem_cons_self)
      obtain ⟨hrest, hgood⟩ := hitem token htoken cursor.advance hcursor.advance
      refine Outcome.Good.map (ih hrest) fun items hitems => ?_
      intro a ha
      rcases List.mem_append.1 ha with hfirst | hlater
      · cases hresult : outcome.result with
        | ok given =>
            refine hgood given hresult a ?_
            simpa [Outcome.value, hresult] using hfirst
        | error e => exact e.elim
      · exact hitems a hlater

theorem gives_commaItems {item : Parser ε α} (hitem : item.Gives good) :
    (commaItems item).Gives fun items => ∀ a ∈ items, good a := by
  intro cursor hcursor
  change (runCommaItems item cursor).Good _
  fun_induction runCommaItems item cursor with
  | case1 cursor hunread =>
      exact Outcome.good_ok hcursor (List.forall_mem_nil _)
  | case2 cursor token later hunread hcomma outcome e herror =>
      exact Outcome.good_error (hitem cursor.advance hcursor.advance).1
  | case3 cursor token later hunread hcomma outcome a hresult ih =>
      obtain ⟨hrest, hgood⟩ := hitem cursor.advance hcursor.advance
      refine Outcome.Good.map (ih hrest) fun items hitems => ?_
      exact List.forall_mem_cons.2 ⟨hgood a hresult, hitems⟩
  | case4 cursor token later hunread hcomma =>
      exact Outcome.good_ok hcursor (List.forall_mem_nil _)

theorem gives_delimited {close wanted : TokenKind} {item : Parser Diagnostic α}
    (hitem : item.Gives good) :
    (delimited close wanted item).Gives fun items => ∀ a ∈ items, good a := by
  refine (gives_skip close).bind fun skipped _ => ?_
  cases skipped with
  | true => exact gives_pure (List.forall_mem_nil _)
  | false =>
      refine hitem.bind fun first hfirst => ?_
      refine (gives_commaItems hitem).bind fun others hothers => ?_
      refine gives_peek.bind fun token _ => ?_
      split
      · refine gives_next.bind fun _ _ => gives_pure ?_
        exact List.forall_mem_cons.2 ⟨hfirst, hothers⟩
      · exact gives_fail _

section Trees

variable {child : Expr → Prop} {read : ExprParser} {first : Token} {left : Expr}

/-- The statements that can be read where every expression is a `child`. -/
inductive MadeOf (child : Expr → Prop) : Statement → Prop
  | binding {name : String} {value : Expr} (hname : IsName name)
      (hvalue : child value) :
      MadeOf child (.binding name value)
  | returning {value : Expr} (hvalue : child value) :
      MadeOf child (.returning value)
  | expression {value : Expr} (hvalue : child value) :
      MadeOf child (.expression value)

/-- The expressions that can be read up to their first extension. -/
inductive OpenedBy (child : Expr → Prop) : Expr → Prop
  | identifier {name : String} (hname : IsName name) :
      OpenedBy child (.identifier name)
  | integer {value : Int64} (hvalue : 0 ≤ value.toInt) :
      OpenedBy child (.integer value)
  | string (value : String) : OpenedBy child (.string value)
  | boolean (value : Bool) : OpenedBy child (.boolean value)
  | unary (op : UnaryOp) {operand : Expr} (hoperand : child operand) :
      OpenedBy child (.unary op operand)
  | group {inner : Expr} (hinner : child inner) : OpenedBy child inner
  | array {elements : List Expr} (helements : ∀ e ∈ elements, child e) :
      OpenedBy child (.array elements)
  | hash {pairs : List (Expr × Expr)}
      (hpairs : ∀ pair ∈ pairs, child pair.1 ∧ child pair.2) :
      OpenedBy child (.hash pairs)
  | conditional {condition : Expr} {consequence : Block}
      {alternative : Option Block} (hcondition : child condition)
      (hconsequence : ∀ s ∈ consequence, MadeOf child s)
      (halternative : ∀ block ∈ alternative, ∀ s ∈ block, MadeOf child s) :
      OpenedBy child (.conditional condition consequence alternative)
  | function {parameters : List String} {body : Block}
      (hparameters : ∀ parameter ∈ parameters, IsName parameter)
      (hbody : ∀ s ∈ body, MadeOf child s) :
      OpenedBy child (.function parameters body)

/-- The expressions that one extension can make of `left`. -/
inductive ExtendedBy (child : Expr → Prop) (left : Expr) : Expr → Prop
  | binary (op : BinaryOp) {right : Expr} (hright : child right) :
      ExtendedBy child left (.binary op left right)
  | call {arguments : List Expr} (harguments : ∀ e ∈ arguments, child e) :
      ExtendedBy child left (.call left arguments)
  | index {position : Expr} (hposition : child position) :
      ExtendedBy child left (.index left position)

/-- Every expression that `read` gives is a `child`. -/
def ReadsOnly (child : Expr → Prop) (read : ExprParser) : Prop :=
  ∀ (strength : Precedence) (first : Token), first.WellSpelled →
    (read strength first).Gives child

theorem ReadsOnly.operand (h : ReadsOnly child read) (strength : Precedence) :
    (operand read strength).Gives child :=
  gives_next.bind fun first hfirst => h strength first hfirst

theorem gives_statement (h : ReadsOnly child read)
    (hfirst : first.WellSpelled) :
    (statement read first).Gives (MadeOf child) := by
  have hclosed : ∀ s, MadeOf child s →
      (do let _ ← skip .semicolon; pure s : Parser Diagnostic Statement).Gives
        (MadeOf child) :=
    fun s hs => (gives_skip .semicolon).bind fun _ _ => gives_pure hs
  rw [statement]
  split
  · refine (gives_expect .ident).bind fun name hname => ?_
    refine (gives_expect .assign).bind fun _ _ => ?_
    refine (h.operand .lowest).bind fun value hvalue => ?_
    refine (gives_pure ?_).bind hclosed
    exact .binding (hname.1.isName hname.2) hvalue
  · split
    · refine (h.operand .lowest).bind fun value hvalue => ?_
      exact (gives_pure (.returning hvalue)).bind hclosed
    · refine (h .lowest first hfirst).bind fun value hvalue => ?_
      exact (gives_pure (.expression hvalue)).bind hclosed

theorem gives_statements (h : ReadsOnly child read)
    (closes : TokenKind → Bool) :
    (statements read closes).Gives fun ss => ∀ s ∈ ss, MadeOf child s :=
  gives_manyUntil fun _ hfirst => gives_recover (gives_statement h hfirst)

theorem gives_block (h : ReadsOnly child read) :
    (block read).Gives fun ss => ∀ s ∈ ss, MadeOf child s :=
  gives_always (gives_statements h _)

theorem gives_pair (h : ReadsOnly child read) :
    (pair read).Gives fun pair => child pair.1 ∧ child pair.2 := by
  refine (h.operand .lowest).bind fun key hkey => ?_
  refine (gives_expect .colon).bind fun _ _ => ?_
  exact (h.operand .lowest).bind fun value hvalue => gives_pure ⟨hkey, hvalue⟩

theorem gives_elseBranch (h : ReadsOnly child read) :
    (elseBranch read).Gives fun branch => ∀ block ∈ branch, ∀ s ∈ block,
      MadeOf child s := by
  refine (gives_skip .elseWord).bind fun skipped _ => ?_
  cases skipped with
  | false => exact gives_pure (by simp)
  | true =>
      refine (gives_expect .lbrace).bind fun _ _ => ?_
      refine (gives_block h).bind fun block hblock => gives_pure ?_
      simpa using hblock

theorem gives_primary (h : ReadsOnly child read) (hfirst : first.WellSpelled) :
    (primary read first).Gives (OpenedBy child) := by
  rw [primary]
  split
  · exact gives_reject _
  · next hopening =>
      exact gives_pure (.identifier (hfirst.isName (kind_of_opening hopening)))
  · next hopening =>
      split
      · next value hvalue =>
          have hdigits := hfirst.isDigit (kind_of_opening hopening)
          exact gives_pure
            (.integer (Integer.toInt_nonneg_of_ofText? hdigits hvalue))
      · exact gives_reject _
  · exact gives_pure (.string _)
  · exact gives_pure (.boolean _)
  · exact (h.operand .unary).bind fun operand hoperand =>
      gives_pure (.unary _ hoperand)
  · refine (h.operand .lowest).bind fun inner hinner => ?_
    exact (gives_expect .rparen).bind fun _ _ => gives_pure (.group hinner)
  · exact (gives_delimited (h.operand .lowest)).bind fun elements helements =>
      gives_pure (.array helements)
  · exact (gives_delimited (gives_pair h)).bind fun pairs hpairs =>
      gives_pure (.hash hpairs)
  · refine (gives_expect .lparen).bind fun _ _ => ?_
    refine (h.operand .lowest).bind fun condition hcondition => ?_
    refine (gives_expect .rparen).bind fun _ _ => ?_
    refine (gives_expect .lbrace).bind fun _ _ => ?_
    refine (gives_block h).bind fun consequence hconsequence => ?_
    exact (gives_elseBranch h).bind fun alternative halternative =>
      gives_pure (.conditional hcondition hconsequence halternative)
  · refine (gives_expect .lparen).bind fun _ _ => ?_
    refine (gives_delimited (gives_expect .ident)).bind
      fun parameters hparameters => ?_
    refine (gives_expect .lbrace).bind fun _ _ => ?_
    refine (gives_block h).bind fun body hbody =>
      gives_pure (.function ?_ hbody)
    intro parameter hparameter
    obtain ⟨token, htoken, rfl⟩ := List.mem_map.1 hparameter
    exact (hparameters token htoken).1.isName (hparameters token htoken).2
  · exact gives_reject _

theorem gives_extended (h : ReadsOnly child read) (extension : Extension) :
    (extended read left extension).Gives (ExtendedBy child left) := by
  cases extension with
  | operator op =>
      exact (h.operand _).bind fun right hright =>
        gives_pure (.binary op hright)
  | arguments =>
      exact (gives_delimited (h.operand .lowest)).bind
        fun arguments harguments =>
        gives_pure (.call harguments)
  | position =>
      refine (h.operand .lowest).bind fun position hposition => ?_
      exact (gives_expect .rbracket).bind fun _ _ =>
        gives_pure (.index hposition)

theorem gives_extensionAbove (strength : Precedence) :
    (extensionAbove strength).Gives fun _ => True :=
  gives_peek.bind fun _ _ => gives_pure trivial

/-- What an induction over the levels has to show: `child levels` of what is
read with that many levels, given `part levels fewer` of what has been read of
it when `fewer` of them are left for extensions. -/
structure LevelInvariant (child : Nat → Expr → Prop)
    (part : Nat → Nat → Expr → Prop) : Prop where
  opened :
    ∀ {levels : Nat} {e : Expr}, OpenedBy (child levels) e →
    part levels levels e
  extended : ∀ {levels fewer : Nat} {left e : Expr}, fewer < levels →
    part levels (fewer + 1) left → ExtendedBy (child fewer) left e →
    part levels fewer e
  whole :
    ∀ {levels fewer : Nat} {e : Expr}, part levels fewer e →
    child (levels + 1) e

variable {child : Nat → Expr → Prop} {part : Nat → Nat → Expr → Prop}

theorem LevelInvariant.gives_extend (h : LevelInvariant child part)
    {levels fewer : Nat} (hfewer : fewer ≤ levels)
    (hread : ∀ n < fewer, ReadsOnly (child n) (expr n)) (strength : Precedence)
    (hleft : part levels fewer left) :
    (extend fewer strength left).Gives (child (levels + 1)) := by
  induction fewer generalizing left with
  | zero =>
      rw [extend]
      refine (gives_extensionAbove strength).bind fun extension _ => ?_
      cases extension with
      | none => exact gives_pure (h.whole hleft)
      | some extension => exact gives_reject _
  | succ fewer ih =>
      rw [extend]
      refine (gives_extensionAbove strength).bind fun extension _ => ?_
      cases extension with
      | none => exact gives_pure (h.whole hleft)
      | some extension =>
          refine gives_next.bind fun _ _ => ?_
          refine (gives_extended (hread fewer (Nat.lt_succ_self fewer))
            extension).bind ?_
          intro longer hlonger
          apply ih (Nat.le_of_succ_le hfewer)
          · intro n hn
            exact hread n (Nat.lt_succ_of_lt hn)
          · exact h.extended hfewer hleft hlonger

/-- What is read with some levels is as the induction says. -/
theorem LevelInvariant.readsOnly_expr (h : LevelInvariant child part)
    (levels : Nat) : ReadsOnly (child levels) (expr levels) := by
  induction levels using Nat.strongRecOn with
  | ind levels ih =>
      intro strength first hfirst
      cases levels with
      | zero =>
          rw [expr]
          exact gives_reject _
      | succ levels =>
          rw [expr]
          refine (gives_primary (ih levels (Nat.lt_succ_self levels))
            hfirst).bind ?_
          intro left hleft
          apply h.gives_extend (Nat.le_refl levels)
          · intro n hn
            exact ih n (Nat.lt_succ_of_lt hn)
          · exact h.opened hleft

end Trees

end Parser

/-- Every statement read from a source text, even from a faulty one. -/
theorem Parsed.madeOf_ofSource {child : Nat → Expr → Prop}
    {part : Nat → Nat → Expr → Prop} (h : Parser.LevelInvariant child part)
    (source : String) :
    ∀ s ∈ (ofSource source).program, Parser.MadeOf (child maxNesting) s := by
  have hcursor : (Cursor.ofStream (.ofSource source)).WellSpelled :=
    fun token htoken =>
      (Piece.wellSpelled_tokens source.toList 1 token htoken).1
  have hgives := Parser.gives_always (ε := Diagnostic)
    (Parser.gives_statements (h.readsOnly_expr maxNesting) fun _ => false)
  exact (hgives _ hcursor).2 _ rfl

end Scriptlet
