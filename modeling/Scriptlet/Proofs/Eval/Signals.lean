/-
Values on their way out and faults are signals and never become data.  From a
clean store, what a run gives is clean or a single clean value on its way out,
what a call gives is clean, and the store is clean again however the run ends.
-/
import Scriptlet.Proofs.Eval.Clean
import Scriptlet.Script

namespace Scriptlet

/-- A clean value, or one on its way out. -/
inductive Value.Orderly : Value → Prop
  | clean {value : Value} (hvalue : value.Clean) : Orderly value
  | returning {value : Value} (hvalue : value.Clean) :
      Orderly (.returning value)

theorem Invariant.Result.orderly {value : Value}
    (h : Invariant.clean.Result () value) : value.Orderly := by
  cases h with
  | value hvalue => exact .clean hvalue
  | returning hvalue => exact .returning hvalue

theorem Invariant.Ends.orderly {run : EStateM.Result Fault Store (Option Value)}
    (h : Invariant.clean.Ends () Invariant.clean.Outcome run) :
    Invariant.clean.Ends ()
      (fun _ outcome => ∀ value ∈ outcome, value.Orderly) run :=
  h.mono fun _ _ houtcome value hvalue => (houtcome value hvalue).orderly

namespace Eval

section Runs

variable (limit levels : Nat) (scope : ScopeId)

theorem keeps_eval (e : Expr) :
    (Expr.eval limit levels scope e).Keeps Value.Orderly := by
  refine EvalM.keeps_of_ends fun store hstore => ?_
  have hends := Invariant.clean.keeps_eval limit levels scope e hstore
  exact hends.mono fun _ _ hresult => hresult.orderly

theorem keeps_statement (s : Statement) :
    (statement (Expr.eval limit levels) scope s).Keeps
      fun outcome => ∀ value ∈ outcome, value.Orderly := by
  refine EvalM.keeps_of_ends fun store hstore => ?_
  have heval := Invariant.clean.keeps_eval limit levels
  exact (heval.statement hstore scope s).orderly

theorem keeps_block (body : Block) :
    (block (Expr.eval limit levels) scope body).Keeps
      fun outcome => ∀ value ∈ outcome, value.Orderly := by
  refine EvalM.keeps_of_ends fun store hstore => ?_
  have heval := Invariant.clean.keeps_eval limit levels
  exact (heval.block hstore scope body).orderly

/-- The statements of a program come to a clean value. -/
theorem keeps_ofOutcome (source : Program) :
    (block (evaluator limit) scope source >>= fun outcome =>
      pure (.ofOutcome outcome)).Keeps Value.Clean :=
  EvalM.keeps_of_ends fun _ hstore =>
    (Invariant.clean.keeps_eval limit limit).body hstore scope source

end Runs

theorem keeps_apply (limit levels : Nat) (callee : Value)
    {arguments : List Value} (h : ∀ argument ∈ arguments, argument.Clean) :
    (apply (Expr.eval limit levels) callee arguments).Keeps Value.Clean :=
  EvalM.keeps_of_ends fun _ hstore =>
    (Invariant.clean.keeps_eval limit levels).apply hstore callee h

theorem program_clean (limit : Nat) (scope : ScopeId) (source : Program)
    {store : Store} (hstore : store.Clean) :
    ((program limit scope source store).1.Clean ∨
        ∃ fault, (program limit scope source store).1 = .fault fault) ∧
      (program limit scope source store).2.Clean := by
  have hafter := keeps_ofOutcome limit scope source store hstore
  rw [program]
  cases hresult : block (evaluator limit) scope source store with
  | ok outcome after =>
      rw [EvalM.bind_of_ok hresult] at hafter
      exact ⟨Or.inl hafter.1, hafter.2⟩
  | error fault after =>
      rw [EvalM.bind_of_error hresult] at hafter
      exact ⟨Or.inr ⟨fault, rfl⟩, hafter⟩

end Eval

theorem Value.eq_of_toResult {value result : Value}
    (h : value.toResult = .ok result) : result = value := by
  cases value <;> cases h <;> rfl

theorem Script.clean_of_run {limit : Nat} {source : String} {value : Value}
    (h : (Script.run limit source).value = .ok value) : value.Clean := by
  rw [Script.run] at h
  split at h
  · have hstart : (Session.start limit).store.Clean :=
      Store.clean_empty.addScope none
    have hprogram := (Eval.program_clean limit (Session.start limit).scope
      (Parsed.ofSource source).program hstart).1
    change Value.toResult (Eval.program limit (Session.start limit).scope
      (Parsed.ofSource source).program (Session.start limit).store).1 =
        .ok value at h
    rcases hprogram with hclean | ⟨fault, hfault⟩
    · rw [Value.eq_of_toResult h]
      exact hclean
    · rw [hfault] at h
      cases h
  · cases h

namespace Eval

/-- From a clean store, expressions, statements and blocks give clean values and
clean values on their way out, calls give clean values, and a program gives a
clean value or ends as a fault; the store is clean afterwards also where a run
fails.  So the value of a script is clean, and neither a fault nor on its way
out. -/
theorem signals_never_stored (limit levels : Nat) :
    (∀ (scope : ScopeId) (e : Expr),
      (Expr.eval limit levels scope e).Keeps Value.Orderly) ∧
      (∀ (scope : ScopeId) (s : Statement),
        (statement (Expr.eval limit levels) scope s).Keeps
          fun outcome => ∀ value ∈ outcome, value.Orderly) ∧
      (∀ (scope : ScopeId) (body : Block),
        (block (Expr.eval limit levels) scope body).Keeps
          fun outcome => ∀ value ∈ outcome, value.Orderly) ∧
      (∀ (callee : Value) (arguments : List Value),
        (∀ argument ∈ arguments, argument.Clean) →
        (apply (Expr.eval limit levels) callee arguments).Keeps Value.Clean) ∧
      (∀ (scope : ScopeId) (source : Program) (store : Store), store.Clean →
        ((program limit scope source store).1.Clean ∨
            ∃ fault, (program limit scope source store).1 = .fault fault) ∧
          (program limit scope source store).2.Clean) ∧
      ∀ (source : String) (value : Value),
        (Script.run limit source).value = .ok value → value.Clean := by
  refine ⟨?_, ?_, ?_, ?_, ?_, ?_⟩
  · exact keeps_eval limit levels
  · exact keeps_statement limit levels
  · exact keeps_block limit levels
  · intro callee arguments harguments
    exact keeps_apply limit levels callee harguments
  · intro scope source store hstore
    exact program_clean limit scope source hstore
  · intro source value hvalue
    exact Script.clean_of_run hvalue

/-- A `return` inside an array, in the body of a function and in a program. -/
theorem signals_never_stored_in_array :
    let store := (Store.empty.addScope none).2
    let body : Block :=
      [.expression (.array
          [.conditional (.identifier "x") [.returning (.identifier "x")] none])]
    let arguments : List Value := [.array [.null]]
    store.Clean ∧ (∀ argument ∈ arguments, argument.Clean) ∧
      (apply (Expr.eval 8 8) (.function ⟨0, ["x"], body, 0⟩) arguments).Keeps
        Value.Clean ∧
      (program 8 0 body store).2.Clean := by
  intro store body arguments
  have hstore : store.Clean := Store.clean_empty.addScope none
  have harguments : ∀ argument ∈ arguments, argument.Clean := by
    intro argument hargument
    obtain rfl := List.mem_singleton.1 hargument
    apply Value.Clean.array
    intro element helement
    obtain rfl := List.mem_singleton.1 helement
    exact .null
  obtain ⟨-, -, -, happly, hprogram, -⟩ := signals_never_stored 8 8
  exact ⟨hstore, harguments, happly _ arguments harguments,
    (hprogram 0 body store hstore).2⟩

end Eval

end Scriptlet
