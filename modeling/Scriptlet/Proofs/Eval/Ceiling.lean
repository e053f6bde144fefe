/-
Raising the limit on nested expressions.  A run under a lower limit goes along
with the run under a higher one until it is over or the lower limit is hit.  So
a result that is no stack overflow stays the same, and what was printed up to an
overflow is the beginning of what is printed under the higher limit.
-/
import Scriptlet.Proofs.Eval.Lockstep

namespace Scriptlet

/-- What was printed before is the beginning of what is printed after. -/
def Store.Prints (before after : Store) : Prop :=
  ∃ more : String, after.output = before.output ++ more

namespace Store.Prints

variable {first second third : Store}

theorem of_eq (h : second.output = first.output) : first.Prints second :=
  ⟨"", by rw [h, String.append_empty]⟩

theorem trans (h : first.Prints second) (h' : second.Prints third) :
    first.Prints third := by
  obtain ⟨more, hsecond⟩ := h
  obtain ⟨rest, hthird⟩ := h'
  exact ⟨more ++ rest, by rw [hthird, hsecond, String.append_assoc]⟩

theorem print (store : Store) (line : String) :
    store.Prints (store.print line) :=
  ⟨line ++ "\n", String.append_assoc⟩

end Store.Prints

namespace Eval

theorem lockstep_prints : Lockstep fun _ run _ => run.Leads Store.Prints :=
  lockstep_leads (fun _ => .of_eq rfl) Store.Prints.trans
    (fun _ _ _ _ => .of_eq rfl) Store.Prints.print

/-- Nothing that a run has printed is taken back. -/
theorem leads_prints (limit levels : Nat) (scope : ScopeId) (e : Expr) :
    (Expr.eval limit levels scope e).Leads Store.Prints := by
  induction levels generalizing scope e with
  | zero => exact lockstep_prints.throw _
  | succ levels ih =>
      exact lockstep_prints.step (fun _ _ => .of_eq rfl)
        (fun _ _ _ _ => .of_eq rfl) (Expr.eval limit levels)
        (Expr.eval limit levels) ih scope e

/-- A run under a limit beside the run under a higher one: it has the same
result, or overflows, having printed no more than the beginning. -/
structure Lags (limit : Nat) {α : Type} (run run' : EvalM α) : Prop where
  prints : run'.Leads Store.Prints
  results (store : Store) : run store = run' store ∨
    ∃ before, run store = .error (.stackOverflow limit) before ∧
      before.Prints (run'.after store)

section

variable {limit : Nat} {α β : Type}

theorem Lags.refl {run : EvalM α} (h : run.Leads Store.Prints) :
    Lags limit run run :=
  ⟨h, fun _ => Or.inl rfl⟩

theorem Lags.bind {run run' : EvalM α} {next next' : α → EvalM β}
    (h : Lags limit run run') (hnext : ∀ a, Lags limit (next a) (next' a)) :
    Lags limit (run >>= next) (run' >>= next') := by
  have hrest : ∀ store,
      (run'.after store).Prints ((run' >>= next').after store) :=
    EvalM.Leads.after_bind (fun _ => .of_eq rfl) fun a => (hnext a).prints
  refine ⟨fun store => (h.prints store).trans (hrest store), fun store => ?_⟩
  rcases h.results store with hsame | ⟨before, hoverflow, hbefore⟩
  · cases hresult : run' store with
    | ok a between =>
        have hafter : (run' >>= next').after store =
            (next' a).after between := by
          simp only [EvalM.after, EvalM.bind_of_ok hresult]
        rw [EvalM.bind_of_ok hresult, EvalM.bind_of_ok (hsame.trans hresult),
          hafter]
        exact (hnext a).results between
    | error fault between =>
        rw [EvalM.bind_of_error hresult,
          EvalM.bind_of_error (hsame.trans hresult)]
        exact Or.inl rfl
  · -- The lower run is over, and the other one can only print more.
    exact Or.inr ⟨before, EvalM.bind_of_error hoverflow,
      hbefore.trans (hrest store)⟩

end

theorem lockstep_lags (limit : Nat) :
    Lockstep fun _ run run' => Lags limit run run' where
  pure a := .refl (lockstep_prints.pure a)
  throw fault := .refl (lockstep_prints.throw fault)
  get := .refl lockstep_prints.get
  makeFunction parameters body scope :=
    .refl (lockstep_prints.makeFunction parameters body scope)
  print line := .refl (lockstep_prints.print line)
  bind := Lags.bind

theorem lags_eval {limit limit' levels levels' : Nat} (h : levels ≤ levels')
    (scope : ScopeId) (e : Expr) :
    Lags limit (Expr.eval limit levels scope e)
      (Expr.eval limit' levels' scope e) := by
  induction levels generalizing levels' scope e with
  | zero =>
      have hprints := leads_prints limit' levels' scope e
      exact ⟨hprints, fun store => Or.inr ⟨store, rfl, hprints store⟩⟩
  | succ levels ih =>
      cases levels' with
      | zero => exact absurd h (Nat.not_succ_le_zero levels)
      | succ levels' =>
          exact (lockstep_lags limit).step (fun _ => .refl fun _ => .of_eq rfl)
            (fun _ _ _ => .refl fun _ => .of_eq rfl)
            _ _ (ih (Nat.le_of_succ_le_succ h)) scope e

theorem lags_block {limit limit' : Nat} (h : limit ≤ limit') (scope : ScopeId)
    (body : Block) :
    Lags limit (block (evaluator limit) scope body)
      (block (evaluator limit') scope body) := by
  have hruns : RunsAlike (fun _ run run' => Lags limit run run') scope
      (bindsStatements body) (evaluator limit) (evaluator limit') :=
    { lockstep_lags limit with
      define := fun _ _ => .refl fun _ => .of_eq rfl
      eval := fun _ => lags_eval h scope _ }
  exact hruns.statements none body (List.Subset.refl _)

/-- Under a higher limit a program ends as under a lower one, with the same
value or fault, the same bindings in every scope and the same text printed,
unless it overflowed under the lower one.  What it printed there is the
beginning of what it prints under the higher one in any case. -/
theorem program_of_limit_le {limit limit' : Nat} (h : limit ≤ limit')
    (scope : ScopeId) (source : Program) (store : Store) :
    ((program limit scope source store).1 ≠ .fault (.stackOverflow limit) →
        program limit' scope source store = program limit scope source store) ∧
      (program limit scope source store).2.Prints
      (program limit' scope source store).2 := by
  rcases (lags_block h scope source).results store with
    hsame | ⟨before, hoverflow, hbefore⟩
  · have hprogram : program limit' scope source store =
        program limit scope source store := by
      rw [program, program, hsame]
    rw [hprogram]
    exact ⟨fun _ => rfl, .of_eq rfl⟩
  · have hprogram : program limit scope source store =
        (.fault (.stackOverflow limit), before) := by
      rw [program, hoverflow]
    rw [hprogram, program_snd limit']
    exact ⟨fun hne => absurd rfl hne, hbefore⟩

/-- A call that needs two levels, under the limit 2 and under a higher one. -/
theorem program_of_limit_le_call :
    let store := (Store.empty.addScope none).2
    let source : Program :=
      [.expression
        (.call (.function ["x"] [.returning (.integer 1)]) [.integer 2])]
    (program 2 0 source store).1 ≠ .fault (.stackOverflow 2) ∧
      program 512 0 source store = program 2 0 source store := by
  intro store source
  have hvalue : (program 2 0 source store).1 = .integer 1 := rfl
  have hne : (program 2 0 source store).1 ≠ .fault (.stackOverflow 2) := by
    rw [hvalue]
    exact nofun
  exact ⟨hne, (program_of_limit_le (by decide) 0 source store).1 hne⟩

end Eval

end Scriptlet
