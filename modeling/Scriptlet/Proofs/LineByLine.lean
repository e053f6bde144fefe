/-
Lines at the prompt, and the same lines as one program.  Where every line is
finished and goes through, running them one after the other comes to the same as
running them joined: the same value, the same session, and the same text printed
in all.

Between two lines the prompt takes from the session what was printed so far.
That makes no difference to the next line, since no run reads what has been
printed.
-/
import Scriptlet.Proofs.Canonical
import Scriptlet.Proofs.Eval.Scopes
import Scriptlet.Proofs.Parser.Complete
import Scriptlet.Proofs.Parser.Finished
import Scriptlet.Prompt

namespace Scriptlet

section Printed

namespace Store

/-- The same store with a text in front of what has been printed. -/
def behind (text : String) (store : Store) : Store :=
  { store with output := text ++ store.output }

theorem lookup_behind (text : String) (store : Store) (id : ScopeId)
    (name : String) :
    (store.behind text).lookup id name = store.lookup id name := by
  have hscopes : (store.behind text).scopes = store.scopes := rfl
  induction id using Nat.strongRecOn with
  | ind id ih =>
      rw [lookup, lookup, hscopes]
      cases store.scopes[id]? with
      | none => rfl
      | some scope =>
          cases hfind : scope.bindings.find? name with
          | some value => simp [hfind]
          | none =>
              cases hparent : scope.parent with
              | none => simp [hfind, hparent]
              | some parent =>
                  by_cases hlt : parent < id
                  · simp [hfind, hparent, hlt, ih parent hlt]
                  · simp [hfind, hparent, hlt]

/-- Stores that differ in what was printed first. -/
def printedBefore (text : String) : Correspondence where
  stores s s' := s' = s.behind text
  scopes _ _ id id' := id = id'
  serials _ _ n n' := n = n'

theorem printedBefore_values_iff {text : String} {s s' : Store} {v v' : Value} :
    (printedBefore text).values s s' v v' ↔ v = v' := by
  constructor
  · intro h
    refine (h.eq_and_holds (P := fun _ => True) fun c d hc => ?_).1
    cases c
    cases d
    obtain ⟨rfl, rfl, rfl, rfl⟩ := hc
    exact ⟨rfl, trivial⟩
  · rintro rfl
    exact v.alike_self fun closure _ => ⟨rfl, rfl, rfl, rfl⟩

theorem printedBefore_persists {text : String} {s s' t t' : Store} :
    (printedBefore text).Persists s s' t t' :=
  ⟨id, id⟩

theorem printedBefore_lawful (text : String) : (printedBefore text).Lawful where
  serials := by
    rintro s s' m _ n _ rfl rfl
    exact Iff.rfl
  lookup := by
    rintro s _ id _ rfl rfl name
    rw [lookup_behind]
    cases s.lookup id name with
    | none => exact .none
    | some value => exact .some (printedBefore_values_iff.2 rfl)
  makeFunction := by
    rintro s _ id _ rfl rfl parameters body
    exact .ok rfl printedBefore_persists (printedBefore_values_iff.2 rfl)
  addScope := by
    rintro s _ id _ rfl rfl
    exact .ok rfl printedBefore_persists rfl
  define := by
    rintro s _ id _ v _ rfl rfl name hvalue
    obtain rfl := printedBefore_values_iff.1 hvalue
    exact .ok rfl printedBefore_persists trivial
  print := by
    rintro s _ rfl line
    refine .ok ?_ printedBefore_persists trivial
    simp [printedBefore, behind, print, String.append_assoc]

end Store

/-- What was printed before a program has no part in it. -/
theorem Eval.program_behind (text : String) (limit : Nat) (scope : ScopeId)
    (source : Program) (store : Store) :
    program limit scope source (store.behind text) =
      ((program limit scope source store).1,
        (program limit scope source store).2.behind text) := by
  have hR := Store.printedBefore_lawful text
  have hends : (Store.printedBefore text).Ends store (store.behind text)
      (Store.printedBefore text).outcomes
      (block (evaluator limit) scope source store)
      (block (evaluator limit) scope source (store.behind text)) :=
    hR.block (hR.follows_eval limit limit) rfl rfl source
  rw [program, program]
  generalize block (evaluator limit) scope source store = result at hends ⊢
  generalize block (evaluator limit) scope source (store.behind text) =
    result' at hends ⊢
  cases hends with
  | error fault hstores _ =>
      cases hstores
      rfl
  | ok hstores _ houtcome =>
      cases hstores
      cases houtcome with
      | none => rfl
      | some hvalue =>
          rw [Store.printedBefore_values_iff] at hvalue
          rw [hvalue]

/-- The same session with a text in front of what has been printed. -/
def Session.behind (text : String) (session : Session) : Session :=
  { session with store := session.store.behind text }

theorem Session.program_behind (text : String) (session : Session)
    (source : Program) :
    (session.behind text).program source =
      ((session.program source).1, (session.program source).2.behind text) := by
  simp only [program, behind, Eval.program_behind]

theorem Session.takeOutput_behind (text : String) (session : Session) :
    (session.behind text).takeOutput =
    (text ++ session.takeOutput.1, session.takeOutput.2) :=
  rfl

theorem Session.behind_behind (first second : String) (session : Session) :
    (session.behind second).behind first =
      session.behind (first ++ second) := by
  simp [behind, Store.behind, String.append_assoc]

end Printed

section Statements

variable {eval : Evaluator} {scope : ScopeId} {store after : Store}

/-- A run ends, and nothing is on its way out. -/
def Eval.GoesThrough (result : EStateM.Result Fault Store (Option Value)) :
    Prop :=
  ∃ outcome after, result = .ok outcome after ∧
    ∀ value, outcome ≠ some (.returning value)

theorem Eval.goesThrough_of_cons {first : Statement} {rest : List Statement}
    {last : Option Value}
    (h : GoesThrough (statements eval scope last (first :: rest) store)) :
    GoesThrough (statement eval scope first store) := by
  obtain ⟨outcome, after, hrun, hthrough⟩ := h
  rw [statements] at hrun
  cases hfirst : statement eval scope first store with
  | error fault middle =>
      rw [EvalM.bind_of_error hfirst] at hrun
      cases hrun
  | ok value middle =>
      refine ⟨value, middle, rfl, ?_⟩
      rintro inner rfl
      rw [EvalM.bind_of_ok hfirst] at hrun
      cases hrun
      exact hthrough inner rfl

/-- A statement that goes through is followed by those behind it. -/
theorem Eval.statements_cons {first : Statement} {outcome : Option Value}
    (h : statement eval scope first store = .ok outcome after)
    (hthrough : ∀ value, outcome ≠ some (.returning value))
    (last : Option Value) (rest : List Statement) :
    statements eval scope last (first :: rest) store =
      statements eval scope outcome rest after := by
  rw [statements, EvalM.bind_of_ok h]
  cases outcome with
  | none => rfl
  | some value =>
      cases value with
      | returning value => exact absurd rfl (hthrough value)
      | _ => rfl

/-- Statements that go through are followed by those behind them. -/
theorem Eval.statements_append {front : List Statement}
    {last outcome : Option Value}
    (h : statements eval scope last front store = .ok outcome after)
    (hthrough : ∀ value, outcome ≠ some (.returning value))
    (back : List Statement) :
    statements eval scope last (front ++ back) store =
      statements eval scope outcome back after := by
  induction front generalizing last store with
  | nil =>
      rw [statements] at h
      cases h
      rfl
  | cons first front ih =>
      obtain ⟨value, middle, hfirst, hvalue⟩ :=
        goesThrough_of_cons ⟨outcome, after, h, hthrough⟩
      rw [statements_cons hfirst hvalue] at h
      rw [List.cons_append, statements_cons hfirst hvalue]
      exact ih h

/-- What came before the first statement is not the value of any. -/
theorem Eval.statements_last (last last' : Option Value)
    {source : List Statement} (h : source ≠ []) :
    statements eval scope last source = statements eval scope last' source := by
  obtain ⟨first, rest, rfl⟩ := List.exists_cons_of_ne_nil h
  rw [statements, statements]

end Statements

section Blank

/-- White space is a blank between tokens, or else no token starts with it. -/
theorem Piece.tokens_of_whiteSpace {text : List Char}
    (h : ∀ c ∈ text, c.toNat ∈ whiteSpace) (line : Nat) :
    ∀ token ∈ tokens line (cut text), token.kind = .illegal := by
  have hwhite : ∀ n ∈ whiteSpace, isBlank (Char.ofNat n) ∨
      isSymbol (Char.ofNat n) ∧
        TokenKind.ofSymbol (Char.ofNat n) = .illegal := by
    decide
  induction text generalizing line with
  | nil => simp [cut, tokens]
  | cons c text ih =>
      have hrest := ih fun d hd => h d (List.mem_cons_of_mem c hd)
      have hc := hwhite c.toNat (h c List.mem_cons_self)
      rw [Char.ofNat_toNat] at hc
      rcases hc with hblank | ⟨hsymbol, hillegal⟩
      · rw [tokens_blank hblank]
        exact hrest _
      · have hread : read c text =
            (token .illegal (String.singleton c) [c], text) := by
          have hstops : StopsAt (TokenKind.ofSymbol c).goesOn text := by
            rw [hillegal]
            intro d _
            rfl
          rw [← hillegal]
          exact read_symbol hsymbol hstops
        rw [cut, hread, tokens]
        intro token htoken
        rcases List.mem_cons.1 htoken with rfl | htoken
        · rfl
        · exact hrest _ token htoken

/-- A blank line that can be read holds no statement. -/
theorem Parsed.program_of_blank {text : String} (hblank : isBlankLine text)
    (hquiet : (ofSource text).diagnostics = []) :
    (ofSource text).program = [] := by
  have hwhite : ∀ c ∈ text.toList, c.toNat ∈ whiteSpace := by
    simpa [isBlankLine] using hblank
  have hillegal : ∀ token ∈ (TokenStream.ofSource text).tokens,
      token.kind = .illegal :=
    Piece.tokens_of_whiteSpace hwhite 1
  have hstarts : ∀ {rest : List Token} {s : Statement},
      ¬ Nonempty (Clause Separated
        (TokenStream.ofSource text).tokens rest s) := by
    rintro rest s ⟨clause⟩
    have hbegins := clause.begins
    have hlegal := clause.legal
    cases htokens : (TokenStream.ofSource text).tokens with
    | nil =>
        rw [htokens] at hbegins
        cases hbegins
    | cons token later =>
        rw [htokens] at hlegal
        exact hlegal (hillegal token (htokens ▸ List.mem_cons_self))
  have hderives : Derives Separated (TokenStream.ofSource text).tokens
      (ofSource text).program :=
    derives_of_quiet (fun _ => id) (TokenStream.at_ofSource text) hquiet
  generalize (ofSource text).program = program at hderives ⊢
  generalize (TokenStream.ofSource text).tokens = tokens at hstarts hderives
  obtain ⟨sentences⟩ := hderives
  cases sentences with
  | ended => rfl
  | terminated first _ _ => exact absurd ⟨first⟩ hstarts
  | bare first _ _ => exact absurd ⟨first⟩ hstarts

end Blank

namespace Prompt

/-- The session that lines leave behind. -/
def after (session : Session) (lines : List String) : Session :=
  lines.foldl (fun session text => (line session text).2) session

/-- What lines print, without what is shown of their values. -/
def printed (session : Session) : List String → String
  | [] => ""
  | first :: rest =>
      (session.program (Parsed.ofSource first).program).2.takeOutput.1 ++
        printed (line session first).2 rest

/-- Every line ends, and neither with a fault nor with a `return`. -/
def GoThrough (session : Session) : List String → Prop
  | [] => True
  | first :: rest =>
      (∃ outcome,
        (session.block (Parsed.ofSource first).program).1 = .ok outcome ∧
        ∀ value, outcome ≠ some (.returning value)) ∧
      GoThrough (line session first).2 rest

instance decidableGoesOn (outcome : Option Value) :
    Decidable (∀ value, outcome ≠ some (.returning value)) :=
  decidable_of_iff (outcome.map Value.typeName ≠ some .returning) <| by
    cases outcome with
    | none => simp
    | some value => cases value <;> simp [Value.typeName]

instance decidableEnds {goesOn : Option Value → Prop} [DecidablePred goesOn] :
    (result : Except Fault (Option Value)) →
      Decidable (∃ outcome, result = .ok outcome ∧ goesOn outcome)
  | .error _ => isFalse (by simp)
  | .ok outcome => decidable_of_iff (goesOn outcome) (by simp)

instance decidableGoThrough : (session : Session) → (lines : List String) →
    Decidable (GoThrough session lines)
  | _, [] => isTrue trivial
  | session, first :: rest =>
      have := decidableGoThrough (line session first).2 rest
      inferInstanceAs (Decidable (_ ∧ _))

variable {session : Session} {text : String} {lines : List String}

theorem after_append (session : Session) (front back : List String) :
    after session (front ++ back) = after (after session front) back :=
  List.foldl_append

theorem printed_append (session : Session) (front back : List String) :
    printed session (front ++ back) =
      printed session front ++ printed (after session front) back := by
  induction front generalizing session with
  | nil => simp [printed, after]
  | cons first front ih =>
      rw [List.cons_append, printed, printed, ih, String.append_assoc]
      rfl

/-- A line that is blank or cannot be read is not run. -/
theorem line_of_skipped (session : Session)
    (h : isBlankLine text ∨ (Parsed.ofSource text).diagnostics ≠ []) :
    (line session text).1.out = "" ∧ (line session text).2 = session := by
  rw [line]
  split
  · exact ⟨rfl, rfl⟩
  · next hblank =>
      have hquiet := h.resolve_left hblank
      dsimp only
      rw [if_neg (by simpa using hquiet)]
      exact ⟨rfl, rfl⟩

theorem line_of_read (session : Session) (hblank : ¬ isBlankLine text)
    (hquiet : (Parsed.ofSource text).diagnostics = []) :
    let source := (Parsed.ofSource text).program
    line session text =
      (⟨(session.program source).2.takeOutput.1 ++ shown source
        (session.program source).1, ""⟩,
        (session.program source).2.takeOutput.2) := by
  rw [line, if_neg hblank]
  dsimp only
  rw [hquiet]
  rfl

/-- A line that can be read is run, and what it printed is taken from the
session.  A blank line is not run, but there is nothing in it. -/
theorem line_snd (hfresh : session.store.output = "")
    (hquiet : (Parsed.ofSource text).diagnostics = []) :
    (line session text).2 =
      (session.program (Parsed.ofSource text).program).2.takeOutput.2 := by
  by_cases hblank : isBlankLine text
  · rw [(line_of_skipped session (.inl hblank)).2,
      Parsed.program_of_blank hblank hquiet]
    obtain ⟨limit, ⟨scopes, functions, output⟩, scope, outer⟩ := session
    cases hfresh
    rfl
  · rw [line_of_read session hblank hquiet]

/-- Statements behind a line that goes through are run in the session that the
line leaves, and what the line printed comes first. -/
theorem program_append (hfresh : session.store.output = "")
    (hquiet : (Parsed.ofSource text).diagnostics = []) {outcome : Option Value}
    (hblock : (session.block (Parsed.ofSource text).program).1 = .ok outcome)
    (hthrough : ∀ value, outcome ≠ some (.returning value)) {source : Program}
    (hsource : source ≠ []) :
    session.program ((Parsed.ofSource text).program ++ source) =
      ((line session text).2.behind
        (session.program (Parsed.ofSource text).program).2.takeOutput.1).program
          source := by
  rw [line_snd hfresh hquiet]
  generalize (Parsed.ofSource text).program = front at *
  rw [Session.block, Session.perform] at hblock
  cases hrun : Eval.block (Eval.evaluator session.limit) session.scope front
    session.store with
  | error fault middle =>
      rw [hrun] at hblock
      cases hblock
  | ok outcome' middle =>
      rw [hrun] at hblock
      cases hblock
      have hprogram :
          Eval.program session.limit session.scope front session.store =
            (.ofOutcome outcome, middle) := by
        rw [Eval.program, hrun]
      have hsession : (session.program front).2.takeOutput.2.behind
          (session.program front).2.takeOutput.1 =
          { session with store := middle } := by
        simp [Session.program, hprogram, Session.takeOutput, Store.takeOutput,
          Session.behind, Store.behind]
      have hjoined : Eval.block (Eval.evaluator session.limit) session.scope
          (front ++ source)
            session.store =
          Eval.block (Eval.evaluator session.limit) session.scope
            source middle := by
        rw [Eval.block, Eval.block, Eval.statements_append hrun hthrough,
          Eval.statements_last outcome none hsource]
      rw [hsession, Session.program, Session.program, Eval.program,
        Eval.program, hjoined]

theorem output_line (hfresh : session.store.output = "")
    (hquiet : (Parsed.ofSource text).diagnostics = []) :
    (line session text).2.store.output = "" := by
  rw [line_snd hfresh hquiet]
  rfl

theorem output_after (hfresh : session.store.output = "")
    (hlines : ∀ text ∈ lines, (Parsed.ofSource text).diagnostics = []) :
    (after session lines).store.output = "" := by
  induction lines generalizing session with
  | nil => exact hfresh
  | cons first lines ih =>
      have hfirst := output_line hfresh (hlines first List.mem_cons_self)
      exact ih hfirst fun text htext =>
        hlines text (List.mem_cons_of_mem first htext)

/-- Statements behind lines that go through are run in the session that the
lines leave, and what the lines printed comes first. -/
theorem program_lines (hfresh : session.store.output = "")
    (hlines : ∀ text ∈ lines, (Parsed.ofSource text).diagnostics = [])
    (hthrough : GoThrough session lines) {source : Program}
    (hsource : source ≠ []) :
    session.program
      (lines.flatMap (fun text => (Parsed.ofSource text).program) ++ source) =
      ((after session lines).behind (printed session lines)).program
        source := by
  induction lines generalizing session with
  | nil =>
      simp [after, printed, Session.behind, Store.behind]
  | cons first lines ih =>
      obtain ⟨⟨outcome, hblock, hvalue⟩, hothers⟩ := hthrough
      have hquiet := hlines first List.mem_cons_self
      have hrest := ih (output_line hfresh hquiet)
        (fun text htext => hlines text (List.mem_cons_of_mem first htext))
        hothers
      rw [List.flatMap_cons, List.append_assoc,
        program_append hfresh hquiet hblock hvalue (by simp [hsource]),
        Session.program_behind, hrest, Session.program_behind,
        Session.program_behind, Session.behind_behind, printed]
      rfl

/-- Lines run one after the other at the prompt, and the same lines joined by
line feeds and run as one program.  Every line but the last has to be finished
and to go through; the last one has to be readable, with a statement in it.
Then the joined text can be read, its value or fault is that of the last line,
and it leaves the session that the lines leave, with everything printed that the
lines printed one after the other. -/
theorem lines_agree_with_whole (limit : Nat) (lines : List String)
    (last : String) (hlines : ∀ text ∈ lines, Finished text)
    (hlast : (Parsed.ofSource last).diagnostics = [])
    (hstatement : (Parsed.ofSource last).program ≠ [])
    (hthrough : GoThrough (Session.start limit) lines) :
    let whole := Parsed.ofSource ("\n".intercalate (lines ++ [last]))
    let ran := (Session.start limit).program whole.program
    whole.diagnostics = [] ∧
      ran.1 =
        ((after (Session.start limit) lines).program
          (Parsed.ofSource last).program).1 ∧
      ran.2.takeOutput =
        (printed (Session.start limit) (lines ++ [last]),
          after (Session.start limit) (lines ++ [last])) := by
  intro whole ran
  have hquiet : ∀ text ∈ lines, (Parsed.ofSource text).diagnostics = [] :=
    fun text htext => (hlines text htext).quiet
  have hwhole : whole = ⟨_, []⟩ := Parsed.ofSource_lines hlines hlast
  have hran : ran = _ :=
    congrArg (fun parsed => (Session.start limit).program parsed.program) hwhole
  rw [program_lines rfl hquiet hthrough hstatement,
    Session.program_behind] at hran
  have hfresh : (after (Session.start limit) lines).store.output = "" :=
    output_after rfl hquiet
  refine ⟨by rw [hwhole], by rw [hran], ?_⟩
  rw [hran, after_append, printed_append, Session.takeOutput_behind]
  change (_, _) = (_, (line (after (Session.start limit) lines) last).2)
  rw [line_snd hfresh hlast, printed, printed, String.append_empty]

/-- A function made in the first line, called in the third and in the last. -/
theorem lines_agree_with_whole_echo :
    let lines := ["let f = fn(x) \x7b puts(x); x; \x7d;", "// twice", "f(1);"]
    let whole := Parsed.ofSource ("\n".intercalate (lines ++ ["f(2);"]))
    let ran := (Session.start 8).program whole.program
    (∀ text ∈ lines, Finished text) ∧ GoThrough (Session.start 8) lines ∧
      whole.diagnostics = [] ∧ ran.1.inspect = "2" ∧
      ran.2.takeOutput.1 = "1\n2\n" := by
  intro lines whole ran
  have hlines : ∀ text ∈ lines, Finished text := by
    intro text htext
    simp only [lines, List.mem_cons, List.not_mem_nil, or_false] at htext
    rcases htext with rfl | rfl | rfl <;>
      exact ⟨by decide +kernel, by decide +kernel, by decide +kernel⟩
  have hthrough : GoThrough (Session.start 8) lines := by decide +kernel
  obtain ⟨hquiet, hvalue, hsession⟩ :=
    lines_agree_with_whole 8 lines "f(2);" hlines (by decide +kernel)
      (by decide +kernel) hthrough
  refine ⟨hlines, hthrough, hquiet, ?_, ?_⟩
  · rw [hvalue]
    decide +kernel
  · rw [hsession]
    decide +kernel

end Prompt

end Scriptlet
