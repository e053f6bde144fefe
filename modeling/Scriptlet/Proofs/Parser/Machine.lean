/-
The parser as a machine.  Its routines call each other, and themselves where
something is repeated, until the tokens say that they are done; errors are
recorded where they are found.  Nothing bounds the steps.  The nesting of
expressions is counted by a depth that is raised in two places and set back only
where the reading of an expression ends.

The machine always comes to an end, with the program and the diagnostics of the
parser, and the depth bounds the expressions that are being read.
-/
import Scriptlet.Proofs.Machine
import Scriptlet.Proofs.Parser.Reads

namespace Scriptlet

namespace Parser

/-- What is repeated between commas. -/
inductive Item where
  | operand
  | pair
  | name

abbrev Item.Result : Item → Type
  | operand => Expr
  | pair => Expr × Expr
  | name => Token

inductive Routine where
  | statements (closes : TokenKind → Bool)
  | statement (first : Token)
  /-- Reads an expression and sets the depth back. -/
  | expression (strength : Precedence) (first : Token)
  | nested (strength : Precedence) (first : Token)
  /-- Folds what follows an expression into it. -/
  | fold (strength : Precedence) (left : Expr)
  | further (item : Item)

/-- The position, what was recorded so far, and the depth. -/
structure Memory where
  cursor : Cursor
  diagnostics : List Diagnostic
  depth : Nat

/-- What a parser did; errors are recorded as soon as they are found. -/
def Memory.after {α : Type} (memory : Memory) (outcome : Outcome Diagnostic α) :
    Memory :=
  { memory with
    cursor := outcome.rest
    diagnostics := memory.diagnostics ++ outcome.reported }

namespace Routine

abbrev Answer : Routine → Type
  | statements _ => List Statement
  | statement _ => Option Statement
  | expression .. | nested .. | fold .. => Option Expr
  | further item => Option (List item.Result)

/-- Code that may give up, after recording why. -/
abbrev CodeM := OptionT (Code Answer Memory)

variable {α : Type}

/-- What needs no routine is done in one step. -/
def direct (parser : Parser Diagnostic α) : CodeM α :=
  OptionT.mk (Code.perform fun memory =>
    ((parser.run memory.cursor).result.toOption,
      memory.after (parser.run memory.cursor)))

/-- Takes a level, if there is one left. -/
def takeLevel (memory : Memory) : Option Unit × Memory :=
  if maxNesting ≤ memory.depth then
    (none, { memory with
      diagnostics :=
        memory.diagnostics ++
          [⟨.nestingTooDeep maxNesting, memory.cursor.line⟩] })
  else (some (), { memory with depth := memory.depth + 1 })

def descend : CodeM Unit := OptionT.mk (Code.perform takeLevel)

def readExpr (strength : Precedence) (first : Token) : CodeM Expr :=
  OptionT.mk (Code.invoke (Routine.expression strength first))

def readOperand (strength : Precedence) : CodeM Expr := do
  readExpr strength (← direct next)

def readFurther (item : Item) : CodeM (List item.Result) :=
  OptionT.mk (Code.invoke (Routine.further item))

def readFold (strength : Precedence) (left : Expr) : CodeM Expr :=
  OptionT.mk (Code.invoke (Routine.fold strength left))

def readBlock : CodeM Block :=
  OptionT.lift (Code.invoke (Routine.statements (· == .rbrace)))

def ofItem : (item : Item) → CodeM item.Result
  | .operand => readOperand .lowest
  | .pair => do
      let key ← readOperand .lowest
      let _ ← direct (expect .colon)
      return (key, ← readOperand .lowest)
  | .name => direct (expect .ident)

def ofFurther (item : Item) : CodeM (List item.Result) := do
  if ← direct (skip .comma) then
    let first ← ofItem item
    let others ← readFurther item
    return first :: others
  else
    return []

def ofDelimited (close wanted : TokenKind) (item : Item) :
    CodeM (List item.Result) := do
  if ← direct (skip close) then
    return []
  else
    let first ← ofItem item
    let others ← readFurther item
    let token ← direct peek
    if token.kind = close then
      let _ ← direct next
      return first :: others
    else
      direct (fail ⟨.expectedToken wanted token.kind, token.line⟩)

def ofStatement (first : Token) : CodeM Statement := do
  let read ←
    if first.kind = .letWord then do
      let name ← direct (expect .ident)
      let _ ← direct (expect .assign)
      pure (.binding name.literal (← readOperand .lowest))
    else if first.kind = .returnWord then do
      pure (.returning (← readOperand .lowest))
    else do
      pure (.expression (← readExpr .lowest first))
  let _ ← direct (skip .semicolon)
  return read

def ofStatements (closes : TokenKind → Bool) :
    Code Answer Memory (List Statement) := do
  let token ← Code.perform fun memory =>
    (memory.cursor.peek, { memory with cursor := memory.cursor.advance })
  if token.kind = .eof ∨ closes token.kind then
    return []
  else
    let first ← Code.invoke (Routine.statement token)
    let others ← Code.invoke (Routine.statements closes)
    return Option.toList first ++ others

def ofElse : CodeM (Option Block) := do
  if ← direct (skip .elseWord) then
    let _ ← direct (expect .lbrace)
    return some (← readBlock)
  else
    return none

def ofPrimary (first : Token) : CodeM Expr :=
  match first.kind.opening? with
  | none => direct (reject (.noExpression first.kind))
  | some .identifier => pure (.identifier first.literal)
  | some .integer =>
      match Integer.ofText? first.literal with
      | some value => pure (.integer value)
      | none => direct (reject (.invalidInteger first.literal))
  | some .string => pure (.string first.literal)
  | some (.boolean value) => pure (.boolean value)
  | some (.operator op) => do pure (.unary op (← readOperand .unary))
  | some .group => do
      let inner ← readOperand .lowest
      let _ ← direct (expect .rparen)
      pure inner
  | some .array => do pure (.array (← ofDelimited .rbracket .rbracket .operand))
  | some .hash => do pure (.hash (← ofDelimited .rbrace .comma .pair))
  | some .conditional => do
      let _ ← direct (expect .lparen)
      let condition ← readOperand .lowest
      let _ ← direct (expect .rparen)
      let _ ← direct (expect .lbrace)
      let consequence ← readBlock
      pure (.conditional condition consequence (← ofElse))
  | some .function => do
      let _ ← direct (expect .lparen)
      let parameters ← ofDelimited .rparen .rparen .name
      let _ ← direct (expect .lbrace)
      pure (.function (parameters.map Token.literal) (← readBlock))
  | some .illegal => direct (reject (.illegalToken first.literal))

/-- The operator that a token stands for.  If there were none, the code would
give up and nothing would be recorded. -/
def lookUp (kind : TokenKind) : CodeM BinaryOp :=
  OptionT.mk (pure kind.operator?)

theorem lookUp_eq_pure {kind : TokenKind} {op : BinaryOp}
    (h : kind.operator? = some op) : lookUp kind = pure op := by
  rw [lookUp, h]
  rfl

/-- What a token of the given kind, already read, makes of `left`. -/
def ofContinuation (left : Expr) (kind : TokenKind) : Continuation → CodeM Expr
  | .operation => do
      let op ← lookUp kind
      pure (.binary op left (← readOperand kind.precedence))
  | .arguments => do pure (.call left (← ofDelimited .rparen .rparen .operand))
  | .position => do
      let position ← readOperand .lowest
      let _ ← direct (expect .rbracket)
      pure (.index left position)

def ofFold (strength : Precedence) (left : Expr) : CodeM Expr := do
  let token ← direct peek
  if strength < token.kind.precedence then
    match token.kind.continuation? with
    | none => pure left
    | some continuation =>
        descend
        let _ ← direct next
        readFold strength (← ofContinuation left token.kind continuation)
  else
    pure left

def ofNested (strength : Precedence) (first : Token) : CodeM Expr := do
  descend
  readFold strength (← ofPrimary first)

def ofExpression (strength : Precedence) (first : Token) : CodeM Expr :=
  OptionT.mk (.act id fun entered =>
    .call (.nested strength first) fun answer =>
      .act (fun memory => { memory with depth := entered.depth }) fun _ =>
        .done answer)

def body : (routine : Routine) → Code Answer Memory routine.Answer
  | .statements closes => ofStatements closes
  | .statement first => (ofStatement first).run
  | .expression strength first => (ofExpression strength first).run
  | .nested strength first => (ofNested strength first).run
  | .fold strength left => (ofFold strength left).run
  | .further item => (ofFurther item).run

end Routine

def machine : Machine where
  Memory := Memory
  Routine := Routine
  Answer := Routine.Answer
  body := Routine.body

/-- The expressions that are being read. -/
def expressions (active : List Routine) : Nat :=
  active.countP fun routine => routine matches .expression ..

theorem expressions_cons (routine : Routine) (active : List Routine) :
    expressions (routine :: active) =
      expressions [routine] + expressions active := by
  rw [expressions, expressions, expressions, ← List.countP_append,
    List.singleton_append]

/-- The depth counts the expressions that are being read, all but `pending` of
them, which have not taken their level yet; it is not too large, and it is zero
outside of expressions. -/
structure Counts (pending : Nat) (active : List Routine) (depth : Nat) :
    Prop where
  expressions_le : expressions active ≤ depth + pending
  depth_le : depth ≤ maxNesting
  outside : expressions active = 0 → depth = 0

/-- What holds at every step. -/
def Fits (active : List Routine) (memory : Memory) : Prop :=
  Counts 1 active memory.depth

namespace Counts

variable {pending depth : Nat} {active : List Routine} {routine : Routine}

theorem weaken (h : Counts 0 active depth) : Counts pending active depth :=
  ⟨Nat.le_trans h.expressions_le (Nat.le_add_right depth pending),
    h.depth_le, h.outside⟩

theorem fits {memory : Memory} (h : Counts 0 active memory.depth) :
    Fits active memory :=
  h.weaken

theorem cons_iff (hroutine : expressions [routine] = 0) :
    Counts pending (routine :: active) depth ↔ Counts pending active depth := by
  have hcount : expressions (routine :: active) = expressions active := by
    rw [expressions_cons, hroutine, Nat.zero_add]
  constructor
  · rintro ⟨hle, hdepth, houtside⟩
    exact ⟨hcount ▸ hle, hdepth, hcount ▸ houtside⟩
  · rintro ⟨hle, hdepth, houtside⟩
    exact ⟨hcount ▸ hle, hdepth, hcount ▸ houtside⟩

theorem enter (h : Counts 0 active depth) (strength : Precedence)
    (first : Token) :
    Counts 1 (.expression strength first :: active) depth := by
  have hcount : expressions (.expression strength first :: active) =
      1 + expressions active :=
    expressions_cons _ active
  have hle := h.expressions_le
  exact ⟨by omega, h.depth_le, fun hzero => by omega⟩

end Counts

open Routine (CodeM)

/-- The code ends as the parser did, and with the given depth. -/
def EndsAs {α : Type} (active : List Routine) (code : CodeM α) (memory : Memory)
    (outcome : Outcome Diagnostic α) (depth : Nat) : Prop :=
  Code.Yields Routine.body Fits active code.run memory outcome.result.toOption
    { memory.after outcome with depth := depth }

/-- From a position on, the code does what the parser does and leaves the depth
as it was. -/
def MirrorsAt {α : Type} (depth : Nat) (code : CodeM α)
    (parser : Parser Diagnostic α) (cursor : Cursor) : Prop :=
  ∀ (active : List Routine) (diagnostics : List Diagnostic),
    Counts 0 active depth →
    EndsAs active code ⟨cursor, diagnostics, depth⟩ (parser.run cursor) depth

/-- The code does what the parser does and leaves the depth as it was. -/
def Mirrors {α : Type} (depth : Nat) (code : CodeM α)
    (parser : Parser Diagnostic α) : Prop :=
  ∀ cursor, MirrorsAt depth code parser cursor

/-- Within an expression, the code does what the parser does, and it may leave
another depth. -/
def Raises {α : Type} (pending depth : Nat) (code : CodeM α)
    (parser : Parser Diagnostic α) : Prop :=
  ∀ (cursor : Cursor) (active : List Routine) (diagnostics : List Diagnostic),
    Counts pending active depth → 0 < expressions active →
      ∃ depth',
        EndsAs active code ⟨cursor, diagnostics, depth⟩
          (parser.run cursor) depth'

section Rules

variable {pending depth : Nat} {α β : Type} {cursor : Cursor}

section Bind

variable {code : CodeM α} {parser : Parser Diagnostic α} {next : α → CodeM β}
  {next' : α → Parser Diagnostic β}

theorem EndsAs.bind_of_ok {active : List Routine} {memory : Memory}
    {between after : Nat} {a : α}
    (h : EndsAs active code memory (parser.run memory.cursor) between)
    (hresult : (parser.run memory.cursor).result = .ok a)
    (hnext : EndsAs active (next a)
      { memory.after (parser.run memory.cursor) with depth := between }
      ((next' a).run (parser.run memory.cursor).rest) after) :
    EndsAs active (code >>= next) memory ((parser >>= next').run memory.cursor)
      after := by
  have hrun : (parser >>= next').run memory.cursor =
      ((next' a).run (parser.run memory.cursor).rest).after
        (parser.run memory.cursor).reported := by
    rw [run_bind, continueWith, Outcome.reported, hresult]
  rw [EndsAs, hresult] at h
  rw [EndsAs, hrun, Memory.after, Outcome.reported_after, ← List.append_assoc]
  exact Code.Yields.bind h hnext

theorem EndsAs.bind_of_error {active : List Routine} {memory : Memory}
    {between : Nat} {e : Diagnostic}
    (h : EndsAs active code memory (parser.run memory.cursor) between)
    (hresult : (parser.run memory.cursor).result = .error e) :
    EndsAs active (code >>= next) memory ((parser >>= next').run memory.cursor)
      between := by
  rw [EndsAs, Memory.after, Outcome.reported, hresult] at h
  rw [run_bind, continueWith, hresult]
  exact Code.Yields.bind h (.done h.ok_end)

theorem MirrorsAt.bind (h : MirrorsAt depth code parser cursor)
    (hnext : ∀ a, (parser.run cursor).result = .ok a →
      MirrorsAt depth (next a) (next' a) (parser.run cursor).rest) :
    MirrorsAt depth (code >>= next) (parser >>= next') cursor := by
  intro active diagnostics hcounts
  have hfirst := h active diagnostics hcounts
  cases hresult : (parser.run cursor).result with
  | ok a => exact hfirst.bind_of_ok hresult (hnext a hresult active _ hcounts)
  | error e => exact hfirst.bind_of_error hresult

theorem Mirrors.bind (h : Mirrors depth code parser)
    (hnext : ∀ a, Mirrors depth (next a) (next' a)) :
    Mirrors depth (code >>= next) (parser >>= next') :=
  fun cursor => (h cursor).bind fun a _ => hnext a _

/-- The last part may leave another depth. -/
theorem Mirrors.bindRaises (h : Mirrors depth code parser)
    (hnext : ∀ a, Raises 0 depth (next a) (next' a)) :
    Raises 0 depth (code >>= next) (parser >>= next') := by
  intro cursor active diagnostics hcounts hinside
  have hfirst := h cursor active diagnostics hcounts
  cases hresult : (parser.run cursor).result with
  | ok a =>
      obtain ⟨depth', hrest⟩ := hnext a _ active _ hcounts hinside
      exact ⟨depth', hfirst.bind_of_ok hresult hrest⟩
  | error e => exact ⟨depth, hfirst.bind_of_error hresult⟩

end Bind

theorem MirrorsAt.congr {code : CodeM α} {parser parser' : Parser Diagnostic α}
    (h : MirrorsAt depth code parser cursor)
    (hrun : parser'.run cursor = parser.run cursor) :
    MirrorsAt depth code parser' cursor := by
  rw [MirrorsAt, hrun]
  exact h

theorem Mirrors.pure (a : α) : Mirrors depth (pure a) (pure a) := by
  intro cursor active diagnostics hcounts
  rw [EndsAs, run_pure, Memory.after, Outcome.reported, List.append_nil]
  exact .done hcounts.fits

theorem Mirrors.direct (parser : Parser Diagnostic α) :
    Mirrors depth (Routine.direct parser) parser :=
  fun _ _ _ hcounts => .act hcounts.fits (.done hcounts.fits)

theorem Mirrors.raises {code : CodeM α} {parser : Parser Diagnostic α}
    (h : Mirrors depth code parser) : Raises 0 depth code parser :=
  fun cursor active diagnostics hcounts _ =>
    ⟨depth, h cursor active diagnostics hcounts⟩

theorem Raises.settled {code : CodeM α} {parser : Parser Diagnostic α}
    (h : Raises pending depth code parser) : Raises 0 depth code parser :=
  fun cursor active diagnostics hcounts =>
    h cursor active diagnostics hcounts.weaken

end Rules

/-- Calling the routine for expressions does what `expr` does. -/
def Simulates (depth : Nat) (expr : ExprParser) : Prop :=
  ∀ (strength : Precedence) (first : Token),
    Mirrors depth (Routine.readExpr strength first) (expr strength first)

/-- What reads an item, given what reads expressions. -/
def Item.parser (expr : ExprParser) :
    (item : Item) → Parser Diagnostic item.Result
  | .operand => Parser.operand expr .lowest
  | .pair => Parser.pair expr
  | .name => expect .ident

section Repetition

variable {depth : Nat} {cursor : Cursor}

theorem mirrors_readFurther {expr : ExprParser} {item : Item}
    (hitem : Mirrors depth (Routine.ofItem item) (item.parser expr)) :
    Mirrors depth (Routine.readFurther item)
      (commaItems (item.parser expr)) := by
  intro cursor
  induction hremaining : cursor.remaining
    using Nat.strongRecOn generalizing cursor with
  | ind remaining ih =>
      subst hremaining
      have hbody :
          MirrorsAt depth (Routine.ofFurther item)
            (commaItems (item.parser expr)) cursor := by
        refine MirrorsAt.congr ?_ (run_commaItems (item.parser expr) cursor)
        refine (Mirrors.direct (skip .comma) cursor).bind ?_
        intro skipped hskipped
        by_cases hkind : cursor.peek.kind = .comma
        · rw [run_skip_of_eq hkind] at hskipped ⊢
          cases hskipped
          refine (hitem cursor.advance).bind fun first _ => ?_
          -- The comma is gone, so fewer tokens remain.
          have hfewer : ((item.parser expr).run cursor.advance).rest.remaining <
              cursor.remaining :=
            Nat.lt_of_le_of_lt ((item.parser expr).remaining_le cursor.advance)
              (Cursor.remaining_advance_lt_of_kind_ne (hkind ▸ nofun))
          exact (ih _ hfewer _ rfl).bind fun others _ => Mirrors.pure _ _
        · rw [run_skip_of_ne hkind] at hskipped ⊢
          cases hskipped
          exact Mirrors.pure _ _
      intro active diagnostics hcounts
      have hinside : Counts 0 (Routine.further item :: active) depth :=
        (Counts.cons_iff rfl).2 hcounts
      exact .call hcounts.fits (hbody _ diagnostics hinside)
        (.done hcounts.fits)

theorem mirrors_ofDelimited {expr : ExprParser} {item : Item}
    (hitem : Mirrors depth (Routine.ofItem item) (item.parser expr))
    (close wanted : TokenKind) :
    Mirrors depth (Routine.ofDelimited close wanted item)
      (delimited close wanted (item.parser expr)) := by
  refine (Mirrors.direct _).bind fun skipped => ?_
  cases skipped with
  | true => exact .pure _
  | false =>
      refine hitem.bind fun first => (mirrors_readFurther hitem).bind
        fun others => ?_
      refine (Mirrors.direct _).bind fun token => ?_
      by_cases hkind : token.kind = close
      · rw [if_pos hkind, if_pos hkind]
        exact (Mirrors.direct _).bind fun _ => .pure _
      · rw [if_neg hkind, if_neg hkind]
        exact .direct _

end Repetition

namespace Simulates

variable {depth : Nat} {expr : ExprParser}

theorem operand (h : Simulates depth expr) (strength : Precedence) :
    Mirrors depth (Routine.readOperand strength)
      (Parser.operand expr strength) :=
  (Mirrors.direct next).bind fun first => h strength first

theorem item (h : Simulates depth expr) (item : Item) :
    Mirrors depth (Routine.ofItem item) (item.parser expr) := by
  cases item with
  | operand => exact h.operand .lowest
  | pair =>
      refine (h.operand .lowest).bind fun key =>
        (Mirrors.direct _).bind fun _ => ?_
      exact (h.operand .lowest).bind fun value => .pure (key, value)
  | name => exact .direct _

theorem delimited (h : Simulates depth expr) (close wanted : TokenKind)
    (item : Item) :
    Mirrors depth (Routine.ofDelimited close wanted item)
      (Parser.delimited close wanted (item.parser expr)) :=
  mirrors_ofDelimited (h.item item) close wanted

theorem statement (h : Simulates depth expr) (first : Token) :
    Mirrors depth (Routine.ofStatement first)
      (Parser.statement expr first) := by
  have hend (read : Statement) : Mirrors depth
      (do let _ ← Routine.direct (skip .semicolon); pure read)
      (do let _ ← skip .semicolon; pure read) :=
    (Mirrors.direct _).bind fun _ => .pure read
  rw [Routine.ofStatement, Parser.statement]
  by_cases hlet : first.kind = .letWord
  · rw [if_pos hlet, if_pos hlet]
    refine (Mirrors.direct _).bind fun _ => (Mirrors.direct _).bind fun _ => ?_
    exact (h.operand .lowest).bind fun _ => (Mirrors.pure _).bind hend
  · rw [if_neg hlet, if_neg hlet]
    by_cases hreturn : first.kind = .returnWord
    · rw [if_pos hreturn, if_pos hreturn]
      exact (h.operand .lowest).bind fun _ => (Mirrors.pure _).bind hend
    · rw [if_neg hreturn, if_neg hreturn]
      exact (h .lowest first).bind fun _ => (Mirrors.pure _).bind hend

/-- Statements are read one by one, and those that fail are dropped. -/
theorem yields_ofStatements (h : Simulates depth expr)
    (closes : TokenKind → Bool) (cursor : Cursor) : ∃ statements noted rest,
      (repeated closes (Parser.statement expr)).run cursor =
        ⟨.ok statements, noted, rest⟩ ∧
      ∀ (active : List Routine) (diagnostics : List Diagnostic),
        Counts 0 active depth →
        Code.Yields Routine.body Fits active (Routine.ofStatements closes)
          ⟨cursor, diagnostics, depth⟩ statements
          ⟨rest, diagnostics ++ noted, depth⟩ := by
  induction hremaining : cursor.remaining
    using Nat.strongRecOn generalizing cursor with
  | ind remaining ih =>
      subst hremaining
      by_cases hkind : cursor.peek.kind = .eof ∨ closes cursor.peek.kind
      · refine ⟨[], [], cursor.advance, run_repeated_of_closes _ hkind, ?_⟩
        intro active diagnostics hcounts
        rw [List.append_nil]
        refine .act hcounts.fits ?_
        dsimp only [Code.bind]
        rw [if_pos hkind]
        exact .done hcounts.fits
      · let first := (Parser.statement expr cursor.peek).run cursor.advance
        -- The token the statement begins with is no end of input, so fewer
        -- tokens remain.
        have hfewer : first.rest.remaining < cursor.remaining :=
          Nat.lt_of_le_of_lt
            ((Parser.statement expr cursor.peek).remaining_le cursor.advance)
            (Cursor.remaining_advance_lt_of_kind_ne fun heof =>
              hkind (Or.inl heof))
        obtain ⟨others, noted, rest, hrun, hothers⟩ :=
          ih _ hfewer first.rest rfl
        refine ⟨first.result.toOption.toList ++ others, first.reported ++ noted,
          rest, ?_, ?_⟩
        · rw [run_repeated_of_open _ hkind, run_fromNext, hrun]
          rfl
        · intro active diagnostics hcounts
          refine .act hcounts.fits ?_
          dsimp only [Code.bind]
          rw [if_neg hkind, ← List.append_assoc]
          have hfirst := h.statement cursor.peek cursor.advance
            (.statement cursor.peek :: active) diagnostics
            ((Counts.cons_iff rfl).2 hcounts)
          have hafter :=
            hothers (.statements closes :: active)
              (diagnostics ++ first.reported) ((Counts.cons_iff rfl).2 hcounts)
          exact .call hcounts.fits hfirst
            (.call hcounts.fits hafter (.done hcounts.fits))

theorem block (h : Simulates depth expr) :
    Mirrors depth Routine.readBlock (Parser.block expr) := by
  intro cursor active diagnostics hcounts
  obtain ⟨statements, noted, rest, hrun, hyields⟩ :=
    h.yields_ofStatements (· == .rbrace) cursor
  have hblock : (Parser.block expr).run cursor =
      ⟨.ok statements, noted, rest⟩ := hrun
  rw [EndsAs, hblock]
  have hinside := hyields (.statements (· == .rbrace) :: active) diagnostics
    ((Counts.cons_iff rfl).2 hcounts)
  exact .call hcounts.fits hinside (.done hcounts.fits)

theorem elseBranch (h : Simulates depth expr) :
    Mirrors depth Routine.ofElse (Parser.elseBranch expr) := by
  refine (Mirrors.direct _).bind fun skipped => ?_
  cases skipped with
  | true =>
      refine (Mirrors.direct _).bind fun _ => ?_
      exact h.block.bind fun alternative => .pure (some alternative)
  | false => exact .pure none

theorem primary (h : Simulates depth expr) (first : Token) :
    Mirrors depth (Routine.ofPrimary first) (Parser.primary expr first) := by
  rw [Routine.ofPrimary, Parser.primary]
  cases first.kind.opening? with
  | none => exact .direct _
  | some opening =>
      cases opening with
      | identifier => exact .pure _
      | integer =>
          dsimp only
          cases Integer.ofText? first.literal with
          | none => exact .direct _
          | some value => exact .pure _
      | string => exact .pure _
      | boolean value => exact .pure _
      | operator op => exact (h.operand .unary).bind fun _ => .pure _
      | group =>
          refine (h.operand .lowest).bind fun _ => ?_
          exact (Mirrors.direct _).bind fun _ => .pure _
      | array =>
          exact (h.delimited .rbracket .rbracket .operand).bind fun _ => .pure _
      | hash => exact (h.delimited .rbrace .comma .pair).bind fun _ => .pure _
      | conditional =>
          refine (Mirrors.direct _).bind fun _ =>
            (h.operand .lowest).bind fun _ => ?_
          refine (Mirrors.direct _).bind fun _ =>
            (Mirrors.direct _).bind fun _ => ?_
          refine h.block.bind fun _ => ?_
          exact h.elseBranch.bind fun _ => .pure _
      | function =>
          refine (Mirrors.direct _).bind fun _ => ?_
          refine (h.delimited .rparen .rparen .name).bind fun _ => ?_
          exact (Mirrors.direct _).bind fun _ => h.block.bind fun _ => .pure _
      | illegal => exact .direct _

/-- What continues an expression extends it; the operator is always found. -/
theorem continued (h : Simulates depth expr) (left : Expr) {kind : TokenKind}
    {continuation : Continuation} {extension : Extension}
    (hkind : kind.continuation? = some continuation)
    (hext : kind.extension? = some extension) :
    Mirrors depth (Routine.ofContinuation left kind continuation)
      (Parser.extended expr left extension) := by
  rw [TokenKind.extension?, hkind] at hext
  cases continuation with
  | operation =>
      obtain ⟨op, hop, hprecedence⟩ :=
        TokenKind.exists_operator_of_continuation? hkind
      rw [hop] at hext
      cases hext
      rw [Routine.ofContinuation, Routine.lookUp_eq_pure hop, ← hprecedence]
      exact (h.operand op.precedence).bind fun _ => .pure _
  | arguments =>
      cases hext
      exact (h.delimited .rparen .rparen .operand).bind fun _ => .pure _
  | position =>
      cases hext
      refine (h.operand .lowest).bind fun _ => ?_
      exact (Mirrors.direct _).bind fun _ => .pure _

end Simulates

section Levels

variable {depth : Nat} {α : Type} {strength : Precedence} {first : Token}

/-- At the ceiling there is no level to take. -/
theorem raises_descend_of_eq (hdepth : depth = maxNesting)
    (rest : Unit → CodeM α) :
    Raises 1 depth (Routine.descend >>= rest) tooDeep := by
  intro cursor active diagnostics hcounts _
  have hlevel : Routine.takeLevel ⟨cursor, diagnostics, depth⟩ =
      (none, ⟨cursor,
        diagnostics ++ [⟨.nestingTooDeep maxNesting, cursor.line⟩], depth⟩) :=
    if_pos (Nat.le_of_eq hdepth.symm)
  exact ⟨depth,
    Code.Yields.bind (.perform hcounts hlevel hcounts) (.done hcounts)⟩

theorem raises_descend_of_lt {rest : Unit → CodeM α}
    {parser : Parser Diagnostic α} (hdepth : depth < maxNesting)
    (h : Raises 0 (depth + 1) (rest ()) parser) :
    Raises 1 depth (Routine.descend >>= rest) parser := by
  intro cursor active diagnostics hcounts hinside
  have htaken : Counts 0 active (depth + 1) :=
    ⟨hcounts.expressions_le, hdepth, fun houtside =>
      absurd houtside (Nat.ne_of_gt hinside)⟩
  obtain ⟨depth', hyields⟩ := h cursor active diagnostics htaken hinside
  have hlevel : Routine.takeLevel ⟨cursor, diagnostics, depth⟩ =
      (some (), ⟨cursor, diagnostics, depth + 1⟩) :=
    if_neg (Nat.not_le_of_lt hdepth)
  exact ⟨depth', Code.Yields.bind (.perform hcounts hlevel htaken.fits) hyields⟩

/-- Whatever depth is left behind, the reading of an expression ends with the
depth that it began with. -/
theorem endsAs_ofExpression {parser : Parser Diagnostic Expr}
    (h : Raises 1 depth (Routine.ofNested strength first) parser)
    {active : List Routine}
    (hcounts : Counts 1 (.expression strength first :: active) depth)
    (cursor : Cursor) (diagnostics : List Diagnostic) :
    EndsAs (.expression strength first :: active)
      (Routine.ofExpression strength first)
      ⟨cursor, diagnostics, depth⟩ (parser.run cursor) depth := by
  let inside : List Routine :=
    .nested strength first :: .expression strength first :: active
  have hinside : 0 < expressions inside := by simp [inside, expressions]
  obtain ⟨depth', hnested⟩ :=
    h cursor inside diagnostics ((Counts.cons_iff rfl).2 hcounts) hinside
  have hback : Counts 1 (.expression strength first :: active) depth' :=
    (Counts.cons_iff rfl).1 hnested.ok_end
  exact .act hcounts (.call hcounts hnested (.act hback (.done hcounts)))

theorem simulates_of_raises {expr : ExprParser}
    (h : ∀ strength first, Raises 1 depth (Routine.ofNested strength first)
      (expr strength first)) : Simulates depth expr := by
  intro strength first cursor active diagnostics hcounts
  have hyields :=
    endsAs_ofExpression (h strength first) (hcounts.enter strength first)
      cursor diagnostics
  exact .call hcounts.fits hyields (.done hcounts.fits)

theorem raises_readFold {left : Expr} {parser : Parser Diagnostic Expr}
    (h : Raises 0 depth (Routine.ofFold strength left) parser) :
    Raises 0 depth (Routine.readFold strength left) parser := by
  intro cursor active diagnostics hcounts hinside
  have hinside' : 0 < expressions (.fold strength left :: active) := hinside
  obtain ⟨depth', hyields⟩ :=
    h cursor (.fold strength left :: active) diagnostics
      ((Counts.cons_iff rfl).2 hcounts) hinside'
  have hback : Counts 1 active depth' := (Counts.cons_iff rfl).1 hyields.ok_end
  exact ⟨depth', .call hcounts.fits hyields (.done hback)⟩

theorem extend_zero (strength : Precedence) (left : Expr) :
    extend 0 strength left = extensionAbove strength >>= fun extension =>
      extension.elim (pure left) fun _ => tooDeep := by
  rw [extend]
  refine bind_congr fun extension => ?_
  cases extension <;> rfl

theorem extend_succ (levels : Nat) (strength : Precedence) (left : Expr) :
    extend (levels + 1) strength left =
      extensionAbove strength >>= fun extension =>
        extension.elim (pure left) fun extension =>
          next >>= fun _ =>
            extended (expr levels) left extension >>=
              extend levels strength := by
  rw [extend]
  refine bind_congr fun extension => ?_
  cases extension <;> rfl

/-- Folding goes on at the tokens at which the parser extends the expression. -/
theorem raises_ofFold {left : Expr}
    {onward : Extension → Parser Diagnostic Expr}
    (h : ∀ kind continuation extension, kind.continuation? = some continuation →
      kind.extension? = some extension →
      Raises 0 depth (do
          Routine.descend
          let _ ← Routine.direct next
          Routine.readFold strength
            (← Routine.ofContinuation left kind continuation))
        (onward extension)) :
    Raises 0 depth (Routine.ofFold strength left)
      (extensionAbove strength >>= fun extension =>
        extension.elim (pure left) onward) := by
  rw [extensionAbove, bind_assoc]
  refine (Mirrors.direct peek).bindRaises fun token => ?_
  rw [pure_bind]
  by_cases hlt : strength < token.kind.precedence
  · rw [if_pos hlt, if_pos hlt]
    cases hkind : token.kind.continuation? with
    | none =>
        rw [TokenKind.extension?_eq_none_iff.2 hkind]
        exact (Mirrors.pure left).raises
    | some continuation =>
        cases hext : token.kind.extension? with
        | none =>
            rw [TokenKind.extension?_eq_none_iff.1 hext] at hkind
            cases hkind
        | some extension => exact h _ _ _ hkind hext
  · rw [if_neg hlt, if_neg hlt]
    exact (Mirrors.pure left).raises

/-- With the levels that are left, expressions are read and extended as by the
parser. -/
theorem raises_levels {levels : Nat} (h : depth + levels = maxNesting) :
    (∀ strength first, Raises 1 depth (Routine.ofNested strength first)
      (expr levels strength first)) ∧
    ∀ strength left, Raises 0 depth (Routine.readFold strength left)
      (extend levels strength left) := by
  induction levels generalizing depth with
  | zero =>
      refine ⟨fun strength first => ?_, fun strength left => raises_readFold ?_⟩
      · rw [expr]
        exact raises_descend_of_eq h _
      · rw [extend_zero]
        exact raises_ofFold fun kind continuation extension _ _ =>
          (raises_descend_of_eq h _).settled
  | succ levels ih =>
      have hdepth : depth < maxNesting := by omega
      -- A level is taken before anything is called, so what is called is one
      -- level down.
      obtain ⟨hnested, hfold⟩ := ih (by omega : depth + 1 + levels = maxNesting)
      have hexpr := simulates_of_raises hnested
      refine ⟨fun strength first => ?_, fun strength left => raises_readFold ?_⟩
      · rw [expr]
        refine raises_descend_of_lt hdepth ?_
        exact (hexpr.primary first).bindRaises fun left => hfold strength left
      · rw [extend_succ]
        refine raises_ofFold fun kind continuation extension hkind hext => ?_
        refine (raises_descend_of_lt hdepth ?_).settled
        refine (Mirrors.direct _).bindRaises fun _ => ?_
        exact (hexpr.continued left hkind hext).bindRaises fun left =>
          hfold strength left

end Levels

/-- A stream of tokens is read to its end, with the program and the diagnostics
of the parser. -/
theorem exists_yields_program (stream : TokenStream) : ∃ rest,
    Code.Yields Routine.body Fits [.statements fun _ => false]
      (Routine.body (.statements fun _ => false)) ⟨.ofStream stream, [], 0⟩
      (Parsed.ofStream stream).program
        ⟨rest, (Parsed.ofStream stream).diagnostics, 0⟩ := by
  have hlevels := (raises_levels (Nat.zero_add maxNesting)).1
  obtain ⟨statements, noted, rest, hrun, hyields⟩ :=
    (simulates_of_raises hlevels).yields_ofStatements (fun _ => false)
      (.ofStream stream)
  obtain ⟨rfl, rfl⟩ : statements = (Parsed.ofStream stream).program ∧
      noted = (Parsed.ofStream stream).diagnostics := by
    cases hrun
    exact ⟨rfl, rfl⟩
  exact ⟨rest, hyields _ [] ⟨Nat.le_refl 0, Nat.zero_le _, fun _ => rfl⟩⟩

/-- Every run over every stream of tokens comes to an end, with the program and
the diagnostics of the parser.  At every step of it the depth is at most the
ceiling and zero outside of expressions, and at most one expression more than
the ceiling is being read.  Whenever the reading of an expression begins it also
ends, with a tree or without, and the depth is then what it was. -/
theorem halts_within_nesting (stream : TokenStream) :
    let start :=
      machine.initial (.statements fun _ => false) ⟨.ofStream stream, [], 0⟩
    (∃ rest, ∀ state, machine.Reaches start state →
      machine.Reaches state (machine.final (.statements fun _ => false)
        (Parsed.ofStream stream).program
        ⟨rest, (Parsed.ofStream stream).diagnostics, 0⟩)) ∧
    (∀ state, machine.Reaches start state →
      state.memory.depth ≤ maxNesting ∧
      expressions state.active ≤ maxNesting + 1 ∧
        (expressions state.active = 0 → state.memory.depth = 0)) ∧
    ∀ strength first callers memory,
      let entry : machine.State :=
        ⟨.expression strength first, machine.body (.expression strength first),
          callers, memory⟩
      machine.Reaches start entry → ∃ answer memory',
        machine.Returns entry answer memory' ∧
        memory'.depth = memory.depth := by
  intro start
  obtain ⟨rest, hmain⟩ := exists_yields_program stream
  have hfits {state : machine.State} (hstate : machine.Reaches start state) :
      Fits state.active state.memory :=
        (Machine.run_of_yields (M := machine) hmain hstate).1
  refine ⟨⟨rest, fun state hstate =>
    (Machine.run_of_yields (M := machine) hmain hstate).2⟩, ?_, ?_⟩
  · intro state hstate
    obtain ⟨hle, hdepth, houtside⟩ := hfits hstate
    exact ⟨hdepth, Nat.le_trans hle (Nat.succ_le_succ hdepth), houtside⟩
  · intro strength first callers memory entry hentry
    have hcounts : Counts 1 entry.active memory.depth := hfits hentry
    have hnested :=
      (raises_levels (Nat.add_sub_of_le hcounts.depth_le)).1 strength first
    have hreturn :=
      endsAs_ofExpression hnested hcounts memory.cursor memory.diagnostics
    exact ⟨_, _, Machine.returns_of_yields (M := machine) hreturn, rfl⟩

end Parser

end Scriptlet
