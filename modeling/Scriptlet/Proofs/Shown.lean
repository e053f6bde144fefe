/-
What the prompt shows of the value of a line.  It looks at the last statement of
the line to tell whether there is anything to show, while the value is that of
the last statement that was run.  The two part where a line ends with a binding
and is left before, by a `return`: then the value is not shown.
-/
import Scriptlet.Proofs.Eval.Signals
import Scriptlet.Proofs.LineByLine

namespace Scriptlet

namespace Eval

section Executed

variable {eval : Evaluator} {scope : ScopeId}

/-- The last statement that a run of statements comes to, and the store it finds
there. -/
def lastExecuted? (eval : Evaluator) (scope : ScopeId) :
    List Statement → Store → Option (Statement × Store)
  | [], _ => none
  | first :: rest, store =>
      match statement eval scope first store with
      | .error _ _ => some (first, store)
      | .ok (some (.returning _)) _ => some (first, store)
      | .ok _ after =>
          some ((lastExecuted? eval scope rest after).getD (first, store))

/-- A statement is a `let` whose value is there, and binds it. -/
def Binds (eval : Evaluator) (scope : ScopeId) (s : Statement) (store : Store) :
    Prop :=
  ∃ name e value after, s = .binding name e ∧
    eval scope e store = .ok value after ∧
    (∀ inner, value ≠ .returning inner) ∧
    statement eval scope s store = .ok none (after.define scope name value)

/-- The last statement that is run binds a name. -/
def EndsBinding (eval : Evaluator) (scope : ScopeId) (source : List Statement)
    (store : Store) : Prop :=
  ∃ s before, lastExecuted? eval scope source store = some (s, before) ∧
    Binds eval scope s before

variable {first : Statement} {rest : List Statement} {store after : Store}
  {outcome : Option Value}

theorem lastExecuted?_cons
    (hfirst : statement eval scope first store = .ok outcome after)
    (hthrough : ∀ value, outcome ≠ some (.returning value)) :
    lastExecuted? eval scope (first :: rest) store =
      some ((lastExecuted? eval scope rest after).getD (first, store)) := by
  rw [lastExecuted?, hfirst]
  cases outcome with
  | none => rfl
  | some value =>
      cases value with
      | returning value => exact absurd rfl (hthrough value)
      | _ => rfl

theorem lastExecuted?_of_stops
    (h : ¬ GoesThrough (statement eval scope first store)) :
    lastExecuted? eval scope (first :: rest) store = some (first, store) := by
  rw [lastExecuted?]
  split
  · rfl
  · rfl
  · next hother hrun => exact absurd ⟨_, _, hrun, hother⟩ h

theorem exists_lastExecuted? (first : Statement) (rest : List Statement)
    (store : Store) :
    ∃ found, lastExecuted? eval scope (first :: rest) store = some found := by
  rw [lastExecuted?]
  split <;> exact ⟨_, rfl⟩

theorem statement_binding {name : String} {e : Expr} {value : Value}
    (hvalue : eval scope e store = .ok value after)
    (hstays : ∀ inner, value ≠ .returning inner) :
    statement eval scope (.binding name e) store =
      .ok none (after.define scope name value) := by
  rw [statement, EvalM.bind_of_ok hvalue]
  cases value with
  | returning inner => exact absurd rfl (hstays inner)
  | _ => rfl

/-- A `let` that goes through has bound its name. -/
theorem binds_iff
    (hfirst : statement eval scope first store = .ok outcome after)
    (hthrough : ∀ value, outcome ≠ some (.returning value)) :
    Binds eval scope first store ↔ Program.endsWithBinding [first] := by
  constructor
  · rintro ⟨name, e, value, middle, rfl, -⟩
    rfl
  · intro hbinding
    cases first with
    | binding name e =>
        cases hvalue : eval scope e store with
        | error fault middle =>
            rw [statement, EvalM.bind_of_error hvalue] at hfirst
            cases hfirst
        | ok value middle =>
            have hstays : ∀ inner, value ≠ .returning inner := by
              rintro inner rfl
              rw [statement, EvalM.bind_of_ok hvalue] at hfirst
              cases hfirst
              exact hthrough inner rfl
            exact ⟨name, e, value, middle, rfl, hvalue, hstays,
              statement_binding hvalue hstays⟩
    | _ => cases hbinding

theorem Binds.goesThrough (h : Binds eval scope first store) :
    GoesThrough (statement eval scope first store) := by
  obtain ⟨name, e, value, after, -, -, -, hbound⟩ := h
  exact ⟨none, _, hbound, fun _ => (Option.some_ne_none _).symm⟩

/-- The last statement that is run binds a name exactly if it is a `let` at the
very end and the run goes through. -/
theorem endsBinding_iff {source : List Statement} (last : Option Value) :
    EndsBinding eval scope source store ↔
      Program.endsWithBinding source ∧
      GoesThrough (statements eval scope last source store) := by
  -- Along the statements: one that stops the run is the last on the left and
  -- refuted on the right, and after any other both sides are about the
  -- statements behind it.
  induction source generalizing store last with
  | nil => simp [EndsBinding, lastExecuted?, Program.endsWithBinding]
  | cons first rest ih =>
      by_cases hfirst : GoesThrough (statement eval scope first store)
      · obtain ⟨outcome, after, hrun, hthrough⟩ := hfirst
        rw [EndsBinding, lastExecuted?_cons hrun hthrough,
          statements_cons hrun hthrough]
        cases rest with
        | nil =>
            have hends : GoesThrough (statements eval scope outcome [] after) :=
              ⟨outcome, after, rfl, hthrough⟩
            simp [lastExecuted?, binds_iff hrun hthrough, hends]
        | cons second rest =>
            obtain ⟨found, hfound⟩ := exists_lastExecuted? second rest after
            rw [hfound, Option.getD_some, ← hfound]
            exact ih outcome
      · rw [EndsBinding, lastExecuted?_of_stops hfirst]
        constructor
        · rintro ⟨s, before, hfound, hbinds⟩
          cases hfound
          exact absurd hbinds.goesThrough hfirst
        · rintro ⟨-, hthrough⟩
          exact absurd (goesThrough_of_cons hthrough) hfirst

end Executed

/-- Whatever a program comes to is clean, so it is not taken for a fault. -/
theorem clean_ofOutcome {limit : Nat} {scope : ScopeId} {source : Program}
    {store after : Store} {outcome : Option Value} (hstore : store.Clean)
    (h : block (evaluator limit) scope source store = .ok outcome after) :
    (Value.ofOutcome outcome).Clean := by
  have hkeeps := keeps_ofOutcome limit scope source store hstore
  rw [EvalM.bind_of_ok h] at hkeeps
  exact hkeeps.1

end Eval

namespace Session

variable {session : Session} {source : Program}

/-- The last statement of a program that is run binds a name. -/
def EndsBinding (session : Session) (source : Program) : Prop :=
  Eval.EndsBinding (Eval.evaluator session.limit) session.scope source
    session.store

/-- A program is left by a `return`. -/
def Returns (session : Session) (source : Program) : Prop :=
  ∃ value, (session.block source).1 = .ok (some (.returning value))

instance decidableReturns : Decidable (session.Returns source) :=
  decidable_of_iff (∃ outcome, (session.block source).1 = .ok outcome ∧
      ¬ ∀ value, outcome ≠ some (.returning value)) <| by
    simp [Returns]

theorem endsBinding_iff : session.EndsBinding source ↔ source.endsWithBinding ∧
    Eval.GoesThrough
      (Eval.block (Eval.evaluator session.limit) session.scope source
        session.store) :=
  Eval.endsBinding_iff none

/-- How a program can end: with a fault, by a `return`, or after its last
statement.  Only in the last case does it end with a binding if its text
does. -/
theorem program_cases (hclean : session.store.Clean) :
    (∃ fault, (session.program source).1 = .fault fault ∧
      ¬ session.EndsBinding source ∧
        ¬ session.Returns source) ∨
      (session.program source).1.Clean ∧
        (session.Returns source ∧ ¬ session.EndsBinding source ∨
          ¬ session.Returns source ∧
          (session.EndsBinding source ↔ source.endsWithBinding)) := by
  rw [endsBinding_iff, Returns, program, Eval.program, block, perform]
  cases hrun : Eval.block (Eval.evaluator session.limit) session.scope source
    session.store with
  | error fault after =>
      left
      refine ⟨fault, rfl, ?_, ?_⟩
      · rintro ⟨-, outcome, after, hok, -⟩
        cases hok
      · rintro ⟨value, hok⟩
        cases hok
  | ok outcome after =>
      right
      refine ⟨Eval.clean_ofOutcome hclean hrun, ?_⟩
      by_cases hreturns : ∃ value, outcome = some (.returning value)
      · obtain ⟨value, rfl⟩ := hreturns
        left
        refine ⟨⟨value, rfl⟩, ?_⟩
        rintro ⟨-, outcome, after, hok, hthrough⟩
        cases hok
        exact hthrough value rfl
      · right
        constructor
        · rintro ⟨value, hok⟩
          cases hok
          exact hreturns ⟨value, rfl⟩
        · exact and_iff_left ⟨outcome, after, rfl, not_exists.1 hreturns⟩

end Session

namespace Prompt

variable {session : Session} {text : String}

/-- The answer to a line is what the line printed, and then its value.  If the
last statement that is run binds a name, there is nothing to show. -/
structure Echoes (session : Session) (source : Program) (out : String) :
    Prop where
  bound :
    session.EndsBinding source → out = (session.program source).2.takeOutput.1
  shown : ¬ session.EndsBinding source →
    out =
      (session.program source).2.takeOutput.1 ++
        ((session.program source).1.inspect ++ "\n")

theorem shown_of_clean {value : Value} (source : Program) (h : value.Clean) :
    shown source value = if source.endsWithBinding then "" else
      value.inspect ++ "\n" := by
  cases h <;> rfl

theorem append_line_ne (text line : String) :
    text ++ "" ≠ text ++ (line ++ "\n") := by
  intro h
  have hlength := congrArg String.length h
  simp at hlength

/-- The value of a line is shown as it should be, unless the line ends with a
binding and is left by a `return`. -/
theorem echoes_iff (hclean : session.store.Clean) (source : Program) :
    Echoes session source
        ((session.program source).2.takeOutput.1 ++ shown source
          (session.program source).1) ↔
      ¬ (source.endsWithBinding ∧ session.Returns source) := by
  rcases session.program_cases hclean with
    ⟨fault, hvalue, hbound, hreturns⟩
      | ⟨hvalue, ⟨hreturns, hbound⟩ | ⟨hreturns, hbound⟩⟩
  · rw [hvalue]
    refine iff_of_true ⟨fun h => absurd h hbound, fun _ => ?_⟩ fun h =>
      hreturns h.2
    rw [hvalue]
    rfl
  · rw [shown_of_clean source hvalue]
    by_cases hends : source.endsWithBinding
    · rw [if_pos hends]
      refine iff_of_false (fun h => ?_) fun h => h ⟨hends, hreturns⟩
      exact append_line_ne _ _ (h.shown hbound)
    · rw [if_neg hends]
      exact iff_of_true ⟨fun h => absurd h hbound, fun _ => rfl⟩
        fun h => hends h.1
  · rw [shown_of_clean source hvalue]
    refine iff_of_true ⟨fun h => ?_, fun h => ?_⟩ fun h => hreturns h.2
    · rw [if_pos (hbound.1 h), String.append_empty]
    · rw [if_neg fun hends => h (hbound.2 hends)]

theorem echoes_line_iff (hclean : session.store.Clean)
    (hblank : ¬ isBlankLine text)
    (hquiet : (Parsed.ofSource text).diagnostics = []) :
    Echoes session (Parsed.ofSource text).program (line session text).1.out ↔
      ¬ ((Parsed.ofSource text).program.endsWithBinding ∧
        session.Returns (Parsed.ofSource text).program) := by
  rw [line_of_read session hblank hquiet]
  exact echoes_iff hclean (Parsed.ofSource text).program

/-- A session between two lines: no value in it is a signal, and what was
printed has been taken from it. -/
structure Ready (session : Session) : Prop where
  clean : session.store.Clean
  taken : session.store.output = ""

theorem Ready.line (h : Ready session) (text : String) :
    Ready (line session text).2 := by
  by_cases hskipped : isBlankLine text ∨ (Parsed.ofSource text).diagnostics ≠ []
  · rw [(line_of_skipped session hskipped).2]
    exact h
  · obtain ⟨hblank, hquiet⟩ := not_or.1 hskipped
    rw [line_of_read session hblank (Decidable.not_not.1 hquiet)]
    have hprogram := Eval.program_clean session.limit session.scope
      (Parsed.ofSource text).program h.clean
    exact ⟨hprogram.2, rfl⟩

theorem Ready.after (h : Ready session) (lines : List String) :
    Ready (after session lines) := by
  induction lines generalizing session with
  | nil => exact h
  | cons first lines ih => exact ih (h.line first)

theorem ready_start (limit : Nat) : Ready (.start limit) :=
  ⟨Store.clean_empty.addScope none, rfl⟩

theorem lines_append (session : Session) (front back : List String) :
    (lines session (front ++ back)).out =
      (lines session front).out ++ (lines (after session front) back).out := by
  induction front generalizing session with
  | nil => exact String.empty_append.symm
  | cons first front ih =>
      change (line session first).1.out ++
        (lines (line session first).2 (front ++ back)).out = _
      rw [ih, ← String.append_assoc]
      rfl

/-- Lines are answered one after the other, each in the session that those
before it leave.  A line that is blank or cannot be read has no answer, and the
others are answered as if it were not there.  Any other line is run, and
answered with what it printed and its value, unless it ends with a binding and
is left by a `return`. -/
theorem lines_echoed_iff (limit : Nat) (front : List String) (text : String)
    (back : List String) :
    let start := Session.start limit
    let session := after start front
    let parsed := Parsed.ofSource text
    let answer := (line session text).1.out
    session.store.output = "" ∧
      (lines start (front ++ text :: back)).out =
        (lines start front).out ++
          (answer ++ (lines (line session text).2 back).out) ∧
      (isBlankLine text ∨ parsed.diagnostics ≠ [] →
        answer = "" ∧ (line session text).2 = session ∧
          (lines start (front ++ text :: back)).out =
            (lines start (front ++ back)).out) ∧
      (¬ isBlankLine text → parsed.diagnostics = [] →
        (line session text).2 =
          (session.program parsed.program).2.takeOutput.2 ∧
          (Echoes session parsed.program answer ↔
            ¬ (parsed.program.endsWithBinding ∧
              session.Returns parsed.program))) := by
  intro start session parsed answer
  have hready : Ready session := (ready_start limit).after front
  have hlines : (lines start (front ++ text :: back)).out =
      (lines start front).out ++
        (answer ++ (lines (line session text).2 back).out) :=
    lines_append start front (text :: back)
  refine ⟨hready.taken, hlines, fun hskipped => ?_, fun hblank hquiet => ?_⟩
  · obtain ⟨hanswer, hsession⟩ := line_of_skipped session hskipped
    refine ⟨hanswer, hsession, ?_⟩
    rw [hlines, hsession, lines_append start front back]
    change _ ++ ((line session text).1.out ++ _) = _
    rw [hanswer, String.empty_append]
  · exact ⟨congrArg Prod.snd (line_of_read session hblank hquiet),
      echoes_line_iff hready.clean hblank hquiet⟩

/-- A function is bound, a line that cannot be read is passed over, and the
function is called. -/
theorem lines_echoed_iff_call :
    let front := ["let f = fn(x) \x7b puts(x); x \x7d;"]
    let session := after (.start 8) front
    let source := (Parsed.ofSource "f(1)").program
    ¬ isBlankLine "f(1)" ∧ (Parsed.ofSource "f(1)").diagnostics = [] ∧
      Echoes session source (line session "f(1)").1.out ∧
      (Parsed.ofSource "let = 2").diagnostics ≠ [] ∧
      (lines (.start 8) (front ++ ["let = 2", "f(1)"])).out = "1\n1\n" := by
  intro front session source
  have hblank : ¬ isBlankLine "f(1)" := by decide +kernel
  have hquiet : (Parsed.ofSource "f(1)").diagnostics = [] := by decide +kernel
  have hloud : (Parsed.ofSource "let = 2").diagnostics ≠ [] := by decide +kernel
  have hsource : ¬ (source.endsWithBinding ∧ session.Returns source) := by
    decide +kernel
  obtain ⟨-, -, -, hread⟩ := lines_echoed_iff 8 front "f(1)" []
  obtain ⟨-, -, hskipped, -⟩ := lines_echoed_iff 8 front "let = 2" ["f(1)"]
  refine ⟨hblank, hquiet, (hread hblank hquiet).2.2 hsource, hloud, ?_⟩
  rw [(hskipped (.inr hloud)).2.2]
  decide +kernel

/-- Two lines that end with a binding and come to 5, the second one by a
`return` inside the binding.  Nothing is shown for either. -/
theorem not_echoes_return :
    let session := Session.start 8
    let before := "return 5; let a = 1"
    let inside := "let a = if (true) \x7b return 5 \x7d"
    (session.program (Parsed.ofSource before).program).1.inspect = "5" ∧
      (line session before).1.out = "" ∧
      ¬ Echoes session (Parsed.ofSource before).program
        (line session before).1.out ∧
      (session.program (Parsed.ofSource inside).program).1.inspect = "5" ∧
      (line session inside).1.out = "" ∧
      ¬ Echoes session (Parsed.ofSource inside).program
        (line session inside).1.out := by
  intro session before inside
  have hclean : session.store.Clean := (ready_start 8).clean
  have hbefore : ¬ isBlankLine before ∧
      (Parsed.ofSource before).diagnostics = [] := by
    decide +kernel
  have hinside : ¬ isBlankLine inside ∧
      (Parsed.ofSource inside).diagnostics = [] := by
    decide +kernel
  rw [echoes_line_iff hclean hbefore.1 hbefore.2,
    echoes_line_iff hclean hinside.1 hinside.2]
  decide +kernel

end Prompt

end Scriptlet
