/-
What becomes of errors.  A statement that cannot be read is dropped, and its
error is the one thing recorded about it: as many diagnostics are recorded as
statements are dropped, at the top and inside of blocks.

The code of every routine is looked at once.  On its way an error is recorded
and not yet answered for by a dropped statement; the routine then has to give
up, and its caller too, up to the statement.  In the same way, a token is read
for every statement that is begun.
-/
import Scriptlet.Proofs.Trace
import Scriptlet.Proofs.Parser.Machine

namespace Scriptlet

/-- The number of tokens still to be read, ends of input left out. -/
def Cursor.readable (cursor : Cursor) : Nat :=
  cursor.unread.countP (·.kind ≠ .eof)

namespace Cursor

theorem readable_advance_le (cursor : Cursor) :
    cursor.advance.readable ≤ cursor.readable :=
  (List.tail_sublist cursor.unread).countP_le

theorem readable_advance_lt {cursor : Cursor} (h : cursor.peek.kind ≠ .eof) :
    cursor.advance.readable + 1 ≤ cursor.readable := by
  cases hunread : cursor.unread with
  | nil => simp [peek, hunread] at h
  | cons token later =>
      have hkind : token.kind ≠ .eof := by simpa [peek, hunread] using h
      simp [readable, advance, hunread, hkind]

end Cursor

namespace Parser

variable {α β : Type}

section Plain

variable {ε : Type}

/-- The parser records nothing on the way and puts no token back. -/
def Plain (parser : Parser ε α) : Prop :=
  ∀ cursor, (parser.run cursor).diagnostics = [] ∧
    (parser.run cursor).rest.readable ≤ cursor.readable

theorem plain_pure (a : α) : Plain (pure a : Parser ε α) :=
  fun _ => ⟨rfl, Nat.le_refl _⟩

theorem plain_fail (e : ε) : Plain (fail e : Parser ε α) :=
  fun _ => ⟨rfl, Nat.le_refl _⟩

theorem plain_peek : Plain (peek : Parser ε Token) :=
  fun _ => ⟨rfl, Nat.le_refl _⟩

theorem plain_next : Plain (next : Parser ε Token) :=
  fun cursor => ⟨rfl, cursor.readable_advance_le⟩

theorem Plain.bind {first : Parser ε α} {next : α → Parser ε β}
    (h : Plain first) (hnext : ∀ a, Plain (next a)) :
    Plain (first >>= next) := by
  intro cursor
  obtain ⟨hquiet, hrest⟩ := h cursor
  rw [run_bind, continueWith]
  split
  · exact ⟨hquiet, hrest⟩
  · next a _ =>
      obtain ⟨hquiet', hrest'⟩ := hnext a (first.run cursor).rest
      refine ⟨?_, Nat.le_trans hrest' hrest⟩
      rw [Outcome.after, hquiet, hquiet']
      rfl

theorem plain_reject (problem : Problem) :
    Plain (reject problem : Parser Diagnostic α) :=
  Plain.bind (fun _ => ⟨rfl, Nat.le_refl _⟩) fun _ => plain_fail _

theorem plain_skip (kind : TokenKind) : Plain (skip kind : Parser ε Bool) := by
  refine plain_peek.bind fun token => ?_
  split
  · exact plain_next.bind fun _ => plain_pure true
  · exact plain_pure false

theorem plain_expect (kind : TokenKind) : Plain (expect kind) := by
  refine plain_peek.bind fun token => ?_
  split
  · exact plain_next
  · exact plain_fail _

end Plain

namespace Routine

/-- Whether an answer says that a statement was dropped. -/
def drops : machine.Given → Bool
  | ⟨.statement _, answer⟩ => answer.isNone
  | _ => false

/-- Whether the routine reads a statement, for which a token has to be there. -/
def begins : Routine → Bool
  | .statement _ => true
  | _ => false

/-- One error if nothing could be read. -/
def lost : Option α → Nat
  | some _ => 0
  | none => 1

/-- The errors that an answer leaves to the caller. -/
def owed : (routine : Routine) → routine.Answer → Nat
  | .statements _, _ | .statement _, _ => 0
  | .expression .., answer | .nested .., answer | .fold .., answer =>
      lost answer
  | .further _, answer => lost answer

/-- The errors that an answer stands for: those left to the caller, and the one
of a statement that is dropped. -/
def due (routine : Routine) (answer : routine.Answer) : Nat :=
  owed routine answer + (drops ⟨routine, answer⟩).toNat

theorem due_statement (first : Token) (answer : Option Statement) :
    due (.statement first) answer = (drops ⟨.statement first, answer⟩).toNat :=
  Nat.zero_add _

/-- Code that has `errors` recorded and not yet answered for, and `tokens` read
and not yet used for a statement.  Whatever its memory and the answers it gets
are, it only adds to what is recorded, begins no statement without a token, and
ends with an answer that stands for the errors. -/
def Balanced (due : α → Nat) : Nat → Nat → Code Answer Memory α → Prop
  | errors, _, .done a => errors = due a
  | errors, tokens, .act change next => ∀ memory, ∃ noted read,
      (change memory).diagnostics = memory.diagnostics ++ noted ∧
      (change memory).cursor.readable + read ≤ memory.cursor.readable ∧
      Balanced due (errors + noted.length) (tokens + read) (next memory)
  | errors, tokens, .call routine next =>
      routine.begins.toNat ≤ tokens ∧ ∀ answer,
        Balanced due (errors + owed routine answer)
          (tokens - routine.begins.toNat) (next answer)

theorem Balanced.bind {due : α → Nat} {due' : β → Nat} {errors tokens : Nat}
    {code : Code Answer Memory α} {next : α → Code Answer Memory β}
    (h : Balanced due errors tokens code)
    (hnext : ∀ a tokens, Balanced due' (due a) tokens (next a)) :
    Balanced due' errors tokens (code >>= next) := by
  induction code generalizing errors tokens with
  | done a =>
      obtain rfl : errors = due a := h
      exact hnext a tokens
  | act change next ih =>
      intro memory
      obtain ⟨noted, read, hnoted, hread, hrest⟩ := h memory
      exact ⟨noted, read, hnoted, hread, ih memory hrest⟩
  | call routine next ih => exact ⟨h.1, fun answer => ih answer (h.2 answer)⟩

/-- Code that begins no statement, and gives up exactly if it has recorded an
error. -/
def Reports (code : CodeM α) : Prop :=
  ∀ tokens, Balanced lost 0 tokens code.run

theorem reports_pure (a : α) : Reports (pure a) := fun _ => rfl

theorem Reports.bind {code : CodeM α} {next : α → CodeM β} (h : Reports code)
    (hnext : ∀ a, Reports (next a)) : Reports (code >>= next) := by
  intro tokens
  refine (h tokens).bind fun answer tokens => ?_
  cases answer with
  | none => exact rfl
  | some a => exact hnext a tokens

theorem reports_direct {parser : Parser Diagnostic α} (h : Plain parser) :
    Reports (direct parser) := by
  intro tokens memory
  obtain ⟨hquiet, hrest⟩ := h memory.cursor
  refine ⟨(parser.run memory.cursor).reported, 0, rfl, hrest, ?_⟩
  cases hresult : (parser.run memory.cursor).result with
  | ok a =>
      simp [Balanced, Outcome.reported, hresult, hquiet, Except.toOption, lost]
  | error e =>
      simp [Balanced, Outcome.reported, hresult, hquiet, Except.toOption, lost]

theorem reports_descend : Reports descend := by
  intro tokens memory
  by_cases hdepth : maxNesting ≤ memory.depth
  · refine ⟨[⟨.nestingTooDeep maxNesting, memory.cursor.line⟩], 0,
      ?_, ?_, ?_⟩ <;>
      simp [takeLevel, hdepth, Balanced, lost]
  · refine ⟨[], 0, ?_, ?_, ?_⟩ <;> simp [takeLevel, hdepth, Balanced, lost]

theorem reports_readExpr (strength : Precedence) (first : Token) :
    Reports (readExpr strength first) :=
  fun _ => ⟨Nat.zero_le _, fun answer => Nat.zero_add (lost answer)⟩

theorem reports_readFurther (item : Item) : Reports (readFurther item) :=
  fun _ => ⟨Nat.zero_le _, fun answer => Nat.zero_add (lost answer)⟩

theorem reports_readFold (strength : Precedence) (left : Expr) :
    Reports (readFold strength left) :=
  fun _ => ⟨Nat.zero_le _, fun answer => Nat.zero_add (lost answer)⟩

/-- A block is read whatever was dropped in it. -/
theorem reports_readBlock : Reports readBlock :=
  fun _ => ⟨Nat.zero_le _, fun _ => rfl⟩

theorem reports_readOperand (strength : Precedence) :
    Reports (readOperand strength) :=
  (reports_direct plain_next).bind fun first => reports_readExpr strength first

theorem reports_expect (kind : TokenKind) : Reports (direct (expect kind)) :=
  reports_direct (plain_expect kind)

theorem reports_ofItem (item : Item) : Reports (ofItem item) := by
  cases item with
  | operand => exact reports_readOperand .lowest
  | pair =>
      refine (reports_readOperand .lowest).bind fun key =>
        (reports_expect .colon).bind fun _ => ?_
      exact (reports_readOperand .lowest).bind fun value =>
        reports_pure (key, value)
  | name => exact reports_expect .ident

theorem reports_ofFurther (item : Item) : Reports (ofFurther item) := by
  refine (reports_direct (plain_skip .comma)).bind fun skipped => ?_
  cases skipped with
  | true =>
      refine (reports_ofItem item).bind fun first => ?_
      exact (reports_readFurther item).bind fun others => reports_pure _
  | false => exact reports_pure []

theorem reports_ofDelimited (close wanted : TokenKind) (item : Item) :
    Reports (ofDelimited close wanted item) := by
  refine (reports_direct (plain_skip close)).bind fun skipped => ?_
  cases skipped with
  | true => exact reports_pure []
  | false =>
      refine (reports_ofItem item).bind fun first => ?_
      refine (reports_readFurther item).bind fun others => ?_
      refine (reports_direct plain_peek).bind fun token => ?_
      split
      · exact (reports_direct plain_next).bind fun _ => reports_pure _
      · exact reports_direct (plain_fail _)

theorem reports_ofStatement (first : Token) : Reports (ofStatement first) := by
  have hend (read : Statement) :
      Reports (do let _ ← direct (skip .semicolon); pure read) :=
    (reports_direct (plain_skip .semicolon)).bind fun _ => reports_pure read
  rw [ofStatement]
  split
  · refine (reports_expect .ident).bind fun name =>
      (reports_expect .assign).bind fun _ => ?_
    exact (reports_readOperand .lowest).bind fun _ => (reports_pure _).bind hend
  · split
    · exact (reports_readOperand .lowest).bind fun _ =>
        (reports_pure _).bind hend
    · exact (reports_readExpr .lowest first).bind fun _ =>
        (reports_pure _).bind hend

theorem reports_ofElse : Reports ofElse := by
  refine (reports_direct (plain_skip .elseWord)).bind fun skipped => ?_
  cases skipped with
  | true =>
      refine (reports_expect .lbrace).bind fun _ => ?_
      exact reports_readBlock.bind fun body => reports_pure (some body)
  | false => exact reports_pure none

theorem reports_ofPrimary (first : Token) : Reports (ofPrimary first) := by
  rw [ofPrimary]
  cases first.kind.opening? with
  | none => exact reports_direct (plain_reject _)
  | some opening =>
      cases opening with
      | identifier => exact reports_pure _
      | integer =>
          dsimp only
          cases Integer.ofText? first.literal with
          | none => exact reports_direct (plain_reject _)
          | some value => exact reports_pure _
      | string => exact reports_pure _
      | boolean value => exact reports_pure _
      | operator op =>
          exact (reports_readOperand .unary).bind fun _ => reports_pure _
      | group =>
          refine (reports_readOperand .lowest).bind fun _ => ?_
          exact (reports_expect .rparen).bind fun _ => reports_pure _
      | array =>
          exact (reports_ofDelimited _ _ .operand).bind fun _ => reports_pure _
      | hash =>
          exact (reports_ofDelimited _ _ .pair).bind fun _ => reports_pure _
      | conditional =>
          refine (reports_expect .lparen).bind fun _ => ?_
          refine (reports_readOperand .lowest).bind fun _ => ?_
          refine (reports_expect .rparen).bind fun _ =>
            (reports_expect .lbrace).bind fun _ => ?_
          exact reports_readBlock.bind fun _ => reports_ofElse.bind fun _ =>
            reports_pure _
      | function =>
          refine (reports_expect .lparen).bind fun _ => ?_
          refine (reports_ofDelimited _ _ .name).bind fun _ => ?_
          refine (reports_expect .lbrace).bind fun _ => ?_
          exact reports_readBlock.bind fun _ => reports_pure _
      | illegal => exact reports_direct (plain_reject _)

/-- The operator is found, so that nothing is given up without a record. -/
theorem reports_lookUp {kind : TokenKind}
    (h : kind.continuation? = some .operation) : Reports (lookUp kind) := by
  obtain ⟨op, hop, -⟩ := TokenKind.exists_operator_of_continuation? h
  rw [lookUp_eq_pure hop]
  exact reports_pure op

theorem reports_ofContinuation (left : Expr) {kind : TokenKind}
    {continuation : Continuation} (h : kind.continuation? = some continuation) :
    Reports (ofContinuation left kind continuation) := by
  cases continuation with
  | operation =>
      refine (reports_lookUp h).bind fun op => ?_
      exact (reports_readOperand kind.precedence).bind fun _ => reports_pure _
  | arguments =>
      exact (reports_ofDelimited _ _ .operand).bind fun _ => reports_pure _
  | position =>
      refine (reports_readOperand .lowest).bind fun _ => ?_
      exact (reports_expect .rbracket).bind fun _ => reports_pure _

theorem reports_ofFold (strength : Precedence) (left : Expr) :
    Reports (ofFold strength left) := by
  refine (reports_direct plain_peek).bind fun token => ?_
  split
  · cases hkind : token.kind.continuation? with
    | none => exact reports_pure left
    | some continuation =>
        refine reports_descend.bind fun _ => ?_
        refine (reports_direct plain_next).bind fun _ => ?_
        exact (reports_ofContinuation left hkind).bind fun left =>
          reports_readFold strength left
  · exact reports_pure left

theorem reports_ofNested (strength : Precedence) (first : Token) :
    Reports (ofNested strength first) :=
  reports_descend.bind fun _ => (reports_ofPrimary first).bind fun left =>
    reports_readFold strength left

theorem reports_ofExpression (strength : Precedence) (first : Token) :
    Reports (ofExpression strength first) := by
  intro tokens memory
  refine ⟨[], 0, (List.append_nil _).symm, Nat.le_refl _, Nat.zero_le _,
    fun answer memory => ?_⟩
  exact ⟨[], 0, (List.append_nil _).symm, Nat.le_refl _,
    Nat.zero_add (lost answer)⟩

/-- The error of a statement stays with the statements around it. -/
theorem balanced_ofStatements (closes : TokenKind → Bool) :
    Balanced (due (.statements closes)) 0 0 (ofStatements closes) := by
  intro memory
  by_cases hclose : memory.cursor.peek.kind = .eof ∨
      closes memory.cursor.peek.kind
  · refine ⟨[], 0, (List.append_nil _).symm,
      memory.cursor.readable_advance_le, ?_⟩
    dsimp only [Code.bind]
    rw [if_pos hclose]
    rfl
  · have hread := Cursor.readable_advance_lt fun heof => hclose (Or.inl heof)
    refine ⟨[], 1, (List.append_nil _).symm, hread, ?_⟩
    dsimp only [Code.bind]
    rw [if_neg hclose]
    exact ⟨Nat.le_refl _, fun _ => ⟨Nat.zero_le _, fun _ => rfl⟩⟩

theorem balanced_body (routine : Routine) :
    Balanced (due routine) 0 0 routine.body := by
  cases routine with
  | statements closes => exact balanced_ofStatements closes
  | statement first =>
      have hdue : due (.statement first) = lost := by
        funext answer
        cases answer <;> rfl
      rw [hdue]
      exact reports_ofStatement first 0
  | expression strength first => exact reports_ofExpression strength first 0
  | nested strength first => exact reports_ofNested strength first 0
  | fold strength left => exact reports_ofFold strength left 0
  | further item => exact reports_ofFurther item 0

/-- The number of statements that were dropped. -/
def dropped (answers : List machine.Given) : Nat := answers.countP drops

theorem dropped_eq_zero_iff {answers : List machine.Given} :
    dropped answers = 0 ↔ ∀ given ∈ answers, drops given = false := by
  simp only [dropped, List.countP_eq_zero, Bool.not_eq_true]

/-- The number of statements that were begun, dropped or not. -/
def begun (answers : List machine.Given) : Nat :=
  answers.countP fun given => given.1.begins

theorem dropped_le_begun (answers : List machine.Given) :
    dropped answers ≤ begun answers := by
  refine List.countP_mono_left fun given _ hdrops => ?_
  obtain ⟨routine, answer⟩ := given
  cases routine with
  | statement first => rfl
  | _ => cases hdrops

theorem countP_given {γ : Type} (p : γ → Bool) (inside answers : List γ)
    (given : γ) :
    (inside ++ given :: answers).countP p =
      inside.countP p + (p given).toNat + answers.countP p := by
  rw [List.countP_append, List.countP_cons]
  cases p given <;> simp [Nat.add_comm, Nat.add_left_comm]

/-- What was recorded in a run is answered for by the statements that were
dropped in it. -/
theorem Balanced.traces {due' : α → Nat} {errors tokens : Nat}
    {code : Code Answer Memory α} {memory memory' : Memory}
    {answers : List machine.Given} {a : α}
    (h : Balanced due' errors tokens code)
    (htraces : Code.Traces Routine.body code memory answers a memory') :
    ∃ noted, memory'.diagnostics = memory.diagnostics ++ noted ∧
      errors + noted.length = dropped answers + due' a ∧
      memory'.cursor.readable + begun answers ≤
        memory.cursor.readable + tokens := by
  induction htraces generalizing errors tokens with
  | done =>
      obtain rfl : errors = due' _ := h
      exact ⟨[], (List.append_nil _).symm, (Nat.zero_add _).symm,
        Nat.le_add_right _ _⟩
  | @act _ _ _ memory _ _ _ _ ih =>
      obtain ⟨noted, read, hnoted, hread, hrest⟩ := h memory
      obtain ⟨later, hlater, hcount, htokens⟩ := ih hrest
      refine ⟨noted ++ later, ?_, ?_, by omega⟩
      · rw [hlater, hnoted, List.append_assoc]
      · rw [List.length_append]
        omega
  | @call _ routine _ answer _ _ _ inside answers _ _ _ ihbody ih =>
      obtain ⟨hbegins, hnext⟩ := h
      obtain ⟨noted, hnoted, hinside, hread⟩ := ihbody (balanced_body routine)
      obtain ⟨later, hlater, hcount, htokens⟩ := ih (hnext answer)
      have hdropped : dropped (inside ++ ⟨routine, answer⟩ :: answers) =
          dropped inside + (drops ⟨routine, answer⟩).toNat + dropped answers :=
        countP_given _ _ _ _
      have hbegun : begun (inside ++ ⟨routine, answer⟩ :: answers) =
          begun inside + routine.begins.toNat + begun answers :=
        countP_given _ _ _ _
      refine ⟨noted ++ later, ?_, ?_, by omega⟩
      · rw [hlater, hnoted, List.append_assoc]
      · rw [List.length_append, hdropped]
        rw [due] at hinside
        omega

/-- The frames that wait go on with balanced code, whatever they are
answered. -/
def Settled : {routine : Routine} → machine.Callers routine → Prop
  | _, .none => True
  | _, .frame caller resume callers =>
      (∀ answer, ∃ errors tokens,
        Balanced (due caller) errors tokens (resume answer)) ∧
        Settled callers

/-- What is left to do is balanced, in the active routine and in those that
wait. -/
structure Accounted (state : machine.State) : Prop where
  code : ∃ errors tokens, Balanced (due state.routine) errors tokens state.code
  callers : Settled state.callers

/-- A step only adds to what is recorded. -/
theorem Accounted.step {state later : machine.State} (h : Accounted state)
    (hstep : machine.step state = some later) :
    Accounted later ∧
      state.memory.diagnostics <+: later.memory.diagnostics := by
  obtain ⟨routine, code, callers, memory⟩ := state
  obtain ⟨⟨errors, tokens, hcode⟩, hcallers⟩ := h
  cases code with
  | done a =>
      cases callers with
      | none => cases hstep
      | frame caller resume callers =>
          cases hstep
          exact ⟨⟨hcallers.1 a, hcallers.2⟩, List.prefix_rfl⟩
  | act change next =>
      cases hstep
      obtain ⟨noted, read, hnoted, -, hnext⟩ := hcode memory
      exact ⟨⟨⟨_, _, hnext⟩, hcallers⟩, noted, hnoted.symm⟩
  | call called next =>
      cases hstep
      refine ⟨⟨⟨0, 0, balanced_body called⟩, fun answer => ?_, hcallers⟩,
        List.prefix_rfl⟩
      exact ⟨_, _, hcode.2 answer⟩

theorem Accounted.reaches {state later : machine.State} (h : Accounted state)
    (hreaches : machine.Reaches state later) :
    Accounted later ∧
      state.memory.diagnostics <+: later.memory.diagnostics := by
  induction hreaches with
  | refl => exact ⟨h, List.prefix_rfl⟩
  | tail _ hstep ih =>
      obtain ⟨hbefore, hprefix⟩ := ih
      obtain ⟨hafter, hprefix'⟩ := hbefore.step hstep
      exact ⟨hafter, hprefix.trans hprefix'⟩

end Routine

open Routine (dropped drops Accounted)

/-- In the run over a stream of tokens, as many diagnostics are recorded as
statements are dropped, so that there are none exactly if nothing is dropped.
The same holds of every statement by itself: whenever one is begun it also ends,
having recorded one diagnostic for every statement dropped inside of it, and one
more exactly if it is dropped itself.  Nothing that was recorded is changed
later, and there are no more diagnostics than tokens, ends of input not
counted. -/
theorem reports_each_dropped_statement (stream : TokenStream) :
    let start :=
      machine.initial (.statements fun _ => false) ⟨.ofStream stream, [], 0⟩
    let parsed := Parsed.ofStream stream
    (∃ answers rest,
      machine.Passes start.active start answers
        (machine.final (.statements fun _ => false) parsed.program
          ⟨rest, parsed.diagnostics, 0⟩) ∧
      parsed.diagnostics.length = dropped answers ∧
      (parsed.diagnostics = [] ↔ ∀ given ∈ answers, drops given = false)) ∧
    (∀ first callers memory,
      let entry : machine.State :=
        ⟨.statement first, machine.body (.statement first), callers, memory⟩
      machine.Reaches start entry → ∃ inside answer memory' noted,
        machine.Passes entry.active entry inside
          ⟨.statement first, .done answer, callers, memory'⟩ ∧
        memory'.diagnostics = memory.diagnostics ++ noted ∧
        noted.length =
          dropped inside + (drops ⟨.statement first, answer⟩).toNat) ∧
    (∀ state later, machine.Reaches start state → machine.Reaches state later →
      state.memory.diagnostics <+: later.memory.diagnostics) ∧
    parsed.diagnostics.length ≤ stream.tokens.countP (·.kind ≠ .eof) := by
  intro start parsed
  obtain ⟨rest, hyields⟩ := exists_yields_program stream
  obtain ⟨answers, htraces⟩ := hyields.exists_traces
  obtain ⟨noted, hnoted, hcount, hbegun⟩ :=
    (Routine.balanced_body _).traces htraces
  obtain rfl : parsed.diagnostics = noted := hnoted
  have hcount : parsed.diagnostics.length = dropped answers :=
    (Nat.zero_add _).symm.trans hcount
  have haccounted : Accounted start :=
    ⟨⟨0, 0, Routine.balanced_body _⟩, trivial⟩
  refine ⟨⟨answers, rest, ?_, hcount, ?_⟩, ?_, ?_, ?_⟩
  · exact Machine.passes_to_answer (M := machine) htraces
  · rw [← List.length_eq_zero_iff, hcount]
    exact Routine.dropped_eq_zero_iff
  · intro first callers memory entry hentry
    have hend := (Machine.run_of_yields (M := machine) hyields hentry).2
    obtain ⟨inside, answer, memory', htraces⟩ :=
      Machine.exists_traces_of_reaches hend (Machine.step_final _ _ _)
    obtain ⟨noted, hnoted, hinside, -⟩ :=
      (Routine.balanced_body (.statement first)).traces htraces
    have hpasses := Machine.passes_to_answer (M := machine) htraces
    have hdue :=
      congrArg (dropped inside + ·) (Routine.due_statement first answer)
    exact ⟨inside, answer, memory', noted, hpasses, hnoted,
      (Nat.zero_add _).symm.trans (hinside.trans hdue)⟩
  · intro state later hstate hlater
    exact ((haccounted.reaches hstate).1.reaches hlater).2
  · have hle := Routine.dropped_le_begun answers
    have hreadable : rest.readable + Routine.begun answers ≤
        stream.tokens.countP (·.kind ≠ .eof) := hbegun
    omega

end Parser

end Scriptlet
