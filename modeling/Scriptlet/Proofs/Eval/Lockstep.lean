/-
Two runs side by side.  A relation between runs that fits the steps the
evaluator is made of also fits whatever it runs: every construct is followed
once here, for all such relations.  A property of single runs is the case in
which the second run plays no part.
-/
import Scriptlet.Eval.Basic

namespace Scriptlet

mutual

/-- The names that running an expression can bind in the scope it runs in: those
of its `let`s, except in functions, which have scopes of their own. -/
def Expr.binds : Expr → List String
  | .identifier _ | .integer _ | .boolean _ | .string _ | .function _ _ => []
  | .array elements => bindsExprs elements
  | .hash pairs => bindsPairs pairs
  | .unary _ operand => operand.binds
  | .binary _ left right => left.binds ++ right.binds
  | .conditional condition consequence none =>
      condition.binds ++ bindsStatements consequence
  | .conditional condition consequence (some alternative) =>
      condition.binds ++
        (bindsStatements consequence ++ bindsStatements alternative)
  | .call callee arguments => callee.binds ++ bindsExprs arguments
  | .index collection position => collection.binds ++ position.binds

def Statement.binds : Statement → List String
  | .binding name value => name :: value.binds
  | .returning value | .expression value => value.binds
  | .block body => bindsStatements body

def bindsExprs : List Expr → List String
  | [] => []
  | e :: es => e.binds ++ bindsExprs es

def bindsPairs : List (Expr × Expr) → List String
  | [] => []
  | (key, value) :: pairs => key.binds ++ (value.binds ++ bindsPairs pairs)

def bindsStatements : List Statement → List String
  | [] => []
  | s :: ss => s.binds ++ bindsStatements ss

end

/-- A relation between runs that holds of each step that leaves the scopes
alone, beside itself, and of related runs one after the other. -/
structure Lockstep (Rel : ∀ ⦃α : Type⦄, EvalM α → EvalM α → Prop) : Prop where
  pure {α : Type} (a : α) : Rel (pure a) (pure a)
  throw {α : Type} (fault : Fault) : Rel (throw fault : EvalM α) (throw fault)
  get : Rel (get : EvalM Store) get
  makeFunction (parameters : List String) (body : Block) (scope : ScopeId) :
    Rel (modifyGet (·.makeFunction parameters body scope) : EvalM Value)
      (modifyGet (·.makeFunction parameters body scope))
  print (line : String) :
    Rel (modify (·.print line) : EvalM PUnit) (modify (·.print line))
  bind {α β : Type} {run run' : EvalM α} {next next' : α → EvalM β}
    (hrun : Rel run run') (hnext : ∀ a, Rel (next a) (next' a)) :
    Rel (run >>= next) (run' >>= next')

namespace Lockstep

variable {Rel : ∀ ⦃α : Type⦄, EvalM α → EvalM α → Prop}

theorem map (h : Lockstep Rel) {α β : Type} {run run' : EvalM α} (f : α → β)
    (hrun : Rel run run') : Rel (f <$> run) (f <$> run') := by
  rw [map_eq_pure_bind, map_eq_pure_bind]
  exact h.bind hrun fun a => h.pure (f a)

theorem ofExcept (h : Lockstep Rel) {α : Type} (result : Except Fault α) :
    Rel (EvalM.ofExcept result) (EvalM.ofExcept result) := by
  cases result with
  | ok a => exact h.pure a
  | error fault => exact h.throw fault

theorem forM (h : Lockstep Rel) {α : Type} {items : List α}
    {f f' : α → EvalM PUnit} (hitems : ∀ item ∈ items, Rel (f item) (f' item)) :
    Rel (items.forM f) (items.forM f') := by
  induction items with
  | nil => exact h.pure _
  | cons item items ih =>
      refine h.bind (hitems item List.mem_cons_self) fun _ => ?_
      apply ih
      intro other hother
      exact hitems other (List.mem_cons_of_mem item hother)

theorem proceed (h : Lockstep Rel) {run run' : EvalM Value}
    {next next' : Value → EvalM Value} (hrun : Rel run run')
    (hnext : ∀ value, Rel (next value) (next' value)) :
    Rel (run.proceed next) (run'.proceed next') := by
  refine h.bind hrun fun value => ?_
  split
  · exact h.pure _
  · exact hnext value

theorem identifier (h : Lockstep Rel) (scope : ScopeId) (name : String) :
    Rel (Eval.identifier scope name) (Eval.identifier scope name) := by
  refine h.bind h.get fun store => ?_
  split
  · exact h.pure _
  · split
    · exact h.pure _
    · exact h.throw _

theorem call (h : Lockstep Rel) (function : Builtin) (arguments : List Value) :
    Rel (function.call arguments) (function.call arguments) := by
  unfold Builtin.call
  split
  · exact h.ofExcept _
  · exact h.ofExcept _
  · exact h.ofExcept _
  · exact h.ofExcept _
  · exact h.ofExcept _
  · refine h.bind ?_ fun _ => h.pure _
    exact h.forM fun argument _ => h.print argument.inspect
  · exact h.throw _

end Lockstep

namespace EvalM

variable {α β : Type} {R : Store → Store → Prop}

/-- The store after a run, whether it ends with a result or with a fault. -/
def after (run : EvalM α) (store : Store) : Store :=
  match run store with
  | .ok _ after => after
  | .error _ after => after

/-- The run leads from every store to a related one. -/
def Leads (R : Store → Store → Prop) (run : EvalM α) : Prop :=
  ∀ store : Store, R store (run.after store)

theorem Leads.after_bind {run : EvalM α} {next : α → EvalM β}
    (hrefl : ∀ store, R store store) (hnext : ∀ a, (next a).Leads R)
    (store : Store) : R (run.after store) ((run >>= next).after store) := by
  cases hresult : run store with
  | ok a between =>
      simp only [after, bind_of_ok hresult, hresult]
      exact hnext a between
  | error fault between =>
      simp only [after, bind_of_error hresult, hresult]
      exact hrefl between

end EvalM

/-- A reflexive and transitive relation between stores that holds across the
single steps holds across what is run one after the other. -/
theorem lockstep_leads {R : Store → Store → Prop}
    (hrefl : ∀ store, R store store)
    (htrans : ∀ {first second third : Store},
      R first second → R second third → R first third)
    (hmake : ∀ store parameters body scope,
      R store (store.makeFunction parameters body scope).2)
    (hprint : ∀ store line, R store (store.print line)) :
    Lockstep fun _ run _ => run.Leads R where
  pure _ store := hrefl store
  throw _ store := hrefl store
  get store := hrefl store
  makeFunction parameters body scope store := hmake store parameters body scope
  print line store := hprint store line
  bind hrun hnext store :=
    htrans (hrun store) (EvalM.Leads.after_bind hrefl hnext store)

namespace Eval

/-- A call, once it has a scope: binds the parameters and runs the body. -/
def callIn (eval : Evaluator) (scope : ScopeId) (closure : Closure)
    (arguments : List Value) : EvalM Value := do
  (closure.parameters.zip arguments).forM fun (name, value) =>
    modify (·.define scope name value)
  return .ofOutcome (← block eval scope closure.body)

theorem callClosure_eq_callIn (eval : Evaluator) {closure : Closure}
    {arguments : List Value}
    (h : arguments.length = closure.parameters.length) :
    callClosure eval closure arguments =
      modifyGet (·.addScope (some closure.scope)) >>= fun scope =>
        callIn eval scope closure arguments := by
  rw [callClosure, if_neg (not_not_intro h)]
  simp only [enterCall, callIn, bind_assoc, pure_bind]

theorem callClosure_eq_throw (eval : Evaluator) {closure : Closure}
    {arguments : List Value}
    (h : arguments.length ≠ closure.parameters.length) :
    callClosure eval closure arguments =
      throw (.argumentCount arguments.length
        (.exactly closure.parameters.length)) := by
  rw [callClosure, if_pos h]
  rfl

end Eval

/-- Two evaluators run in lockstep, in one scope, what binds none but the given
names there. -/
structure RunsAlike (Rel : ∀ ⦃α : Type⦄, EvalM α → EvalM α → Prop)
    (scope : ScopeId) (names : List String) (eval eval' : Evaluator) :
    Prop extends Lockstep Rel where
  define {name : String} (hname : name ∈ names) (value : Value) :
    Rel (modify (·.define scope name value) : EvalM PUnit)
      (modify (·.define scope name value))
  eval {e : Expr} (hbinds : e.binds ⊆ names) :
    Rel (eval scope e) (eval' scope e)

namespace RunsAlike

variable {Rel : ∀ ⦃α : Type⦄, EvalM α → EvalM α → Prop} {scope : ScopeId}
  {names : List String} {eval eval' : Evaluator}

mutual

theorem statement (h : RunsAlike Rel scope names eval eval') (s : Statement)
    (hbinds : s.binds ⊆ names) :
    Rel (Eval.statement eval scope s) (Eval.statement eval' scope s) := by
  match s with
  | .binding name value =>
      obtain ⟨hname, hvalue⟩ := List.cons_subset.1 hbinds
      rw [Eval.statement, Eval.statement]
      refine h.bind (h.eval hvalue) fun result => ?_
      split
      · exact h.pure _
      · exact h.bind (h.define hname result) fun _ => h.pure none
  | .returning value =>
      rw [Eval.statement, Eval.statement]
      exact h.map some (h.proceed (h.eval hbinds) fun _ => h.pure _)
  | .expression value =>
      rw [Eval.statement, Eval.statement]
      exact h.map some (h.eval hbinds)
  | .block body =>
      rw [Eval.statement, Eval.statement]
      exact h.statements none body hbinds

theorem statements (h : RunsAlike Rel scope names eval eval')
    (last : Option Value) (ss : List Statement)
    (hbinds : bindsStatements ss ⊆ names) :
    Rel (Eval.statements eval scope last ss)
      (Eval.statements eval' scope last ss) := by
  match ss with
  | [] =>
      rw [Eval.statements, Eval.statements]
      exact h.pure last
  | s :: ss =>
      obtain ⟨hs, hss⟩ := List.append_subset.1 hbinds
      rw [Eval.statements, Eval.statements]
      refine h.bind (h.statement s hs) fun outcome => ?_
      split
      · exact h.pure _
      · exact h.statements outcome ss hss

end

theorem values (h : RunsAlike Rel scope names eval eval') (es : List Expr)
    (hbinds : bindsExprs es ⊆ names) {next next' : List Value → EvalM Value}
    (hnext : ∀ values, Rel (next values) (next' values)) :
    Rel (Eval.values eval scope es next)
      (Eval.values eval' scope es next') := by
  induction es generalizing next next' with
  | nil => exact hnext []
  | cons e es ih =>
      obtain ⟨he, hes⟩ := List.append_subset.1 hbinds
      refine h.proceed (h.eval he) fun value => ?_
      exact ih hes fun others => hnext (value :: others)

theorem entries (h : RunsAlike Rel scope names eval eval')
    (table : Table HashKey Value) (pairs : List (Expr × Expr))
    (hbinds : bindsPairs pairs ⊆ names) :
    Rel (Eval.entries eval scope table pairs)
      (Eval.entries eval' scope table pairs) := by
  induction pairs generalizing table with
  | nil => exact h.pure _
  | cons pair pairs ih =>
      obtain ⟨hkey, hrest⟩ := List.append_subset.1 hbinds
      obtain ⟨hvalue, hpairs⟩ := List.append_subset.1 hrest
      refine h.proceed (h.eval hkey) fun result => ?_
      refine h.bind (h.ofExcept result.toKey) fun key => ?_
      refine h.proceed (h.eval hvalue) fun value => ?_
      exact ih (table.insert key value) hpairs

theorem branch (h : RunsAlike Rel scope names eval eval') (condition : Value)
    (consequence : Block) (alternative : Option Block)
    (hconsequence : bindsStatements consequence ⊆ names)
    (halternative : ∀ body ∈ alternative, bindsStatements body ⊆ names) :
    Rel (Eval.branch eval scope condition consequence alternative)
      (Eval.branch eval' scope condition consequence alternative) := by
  -- The condition is not known, so the chosen branch is either of the two.
  have hchosen :
      ∀ body ∈ (if condition.isTruthy then some consequence else alternative),
        bindsStatements body ⊆ names := by
    intro body hbody
    split at hbody
    · obtain rfl := Option.some.inj hbody
      exact hconsequence
    · exact halternative body hbody
  rw [Eval.branch, Eval.branch]
  split
  · next body hbody =>
      refine h.bind (h.statements none body (hchosen body hbody))
        fun outcome => ?_
      exact h.pure _
  · exact h.pure _

theorem callIn (h : RunsAlike Rel scope names eval eval') {closure : Closure}
    (arguments : List Value) (hparameters : closure.parameters ⊆ names)
    (hbody : bindsStatements closure.body ⊆ names) :
    Rel (Eval.callIn eval scope closure arguments)
      (Eval.callIn eval' scope closure arguments) := by
  refine h.bind (h.forM ?_) fun _ => ?_
  · intro binding hbinding
    exact h.define (hparameters (List.of_mem_zip hbinding).1) binding.2
  · exact h.bind (h.statements none closure.body hbody) fun _ => h.pure _

/-- An expression is run in lockstep if the expressions inside it are, and the
calls. -/
theorem step (h : RunsAlike Rel scope names eval eval')
    (hcall : ∀ (closure : Closure) (arguments : List Value),
      Rel (Eval.callClosure eval closure arguments)
        (Eval.callClosure eval' closure arguments))
    {e : Expr} (hbinds : e.binds ⊆ names) :
    Rel (Eval.step eval scope e) (Eval.step eval' scope e) := by
  cases e with
  | identifier name => exact h.identifier scope name
  | integer value => exact h.pure _
  | boolean value => exact h.pure _
  | string value => exact h.pure _
  | array elements => exact h.values elements hbinds fun _ => h.pure _
  | hash pairs => exact h.entries [] pairs hbinds
  | unary op operand => exact h.proceed (h.eval hbinds) fun _ => h.ofExcept _
  | binary op left right =>
      obtain ⟨hleft, hright⟩ := List.append_subset.1 hbinds
      refine h.proceed (h.eval hleft) fun _ => ?_
      exact h.proceed (h.eval hright) fun _ => h.ofExcept _
  | conditional condition consequence alternative =>
      cases alternative with
      | none =>
          obtain ⟨hcondition, hconsequence⟩ := List.append_subset.1 hbinds
          refine h.proceed (h.eval hcondition) fun value => ?_
          exact h.branch value consequence none hconsequence nofun
      | some body =>
          obtain ⟨hcondition, hbranches⟩ := List.append_subset.1 hbinds
          obtain ⟨hconsequence, hbody⟩ := List.append_subset.1 hbranches
          refine h.proceed (h.eval hcondition) fun value => ?_
          apply h.branch value consequence (some body) hconsequence
          intro body' hbody'
          obtain rfl := Option.some.inj hbody'
          exact hbody
  | function parameters body => exact h.makeFunction parameters body scope
  | call callee arguments =>
      obtain ⟨hcallee, harguments⟩ := List.append_subset.1 hbinds
      refine h.proceed (h.eval hcallee) fun value => ?_
      refine h.values arguments harguments fun values => ?_
      -- Only a function that the program made runs anything by the evaluator.
      cases value with
      | function closure => exact hcall closure values
      | builtin builtin => exact h.call builtin values
      | _ => exact h.throw _
  | index collection position =>
      obtain ⟨hcollection, hposition⟩ := List.append_subset.1 hbinds
      refine h.proceed (h.eval hcollection) fun _ => ?_
      exact h.proceed (h.eval hposition) fun _ => h.ofExcept _

end RunsAlike

/-- A relation that also holds of the steps that change scopes is handed on from
the evaluators to those with one level more. -/
theorem Lockstep.step {Rel : ∀ ⦃α : Type⦄, EvalM α → EvalM α → Prop}
    (h : Lockstep Rel)
    (haddScope : ∀ parent, Rel (modifyGet (·.addScope parent) : EvalM ScopeId)
      (modifyGet (·.addScope parent)))
    (hdefine : ∀ scope name value,
      Rel (modify (·.define scope name value) : EvalM PUnit)
      (modify (·.define scope name value)))
    (eval eval' : Evaluator)
    (heval : ∀ scope e, Rel (eval scope e) (eval' scope e)) (scope : ScopeId)
    (e : Expr) : Rel (Eval.step eval scope e) (Eval.step eval' scope e) := by
  have hruns : ∀ scope names, RunsAlike Rel scope names eval eval' :=
    fun scope names =>
    { h with
      define := fun {name} _ value => hdefine scope name value
      eval := fun {e} _ => heval scope e }
  refine (hruns scope e.binds).step ?_ (List.Subset.refl _)
  intro closure arguments
  by_cases hlength : arguments.length = closure.parameters.length
  · rw [Eval.callClosure_eq_callIn eval hlength,
      Eval.callClosure_eq_callIn eval' hlength]
    refine h.bind (haddScope (some closure.scope)) fun scope => ?_
    let names := closure.parameters ++ bindsStatements closure.body
    exact (hruns scope names).callIn arguments (List.subset_append_left _ _)
      (List.subset_append_right _ _)
  · rw [Eval.callClosure_eq_throw eval hlength,
      Eval.callClosure_eq_throw eval' hlength]
    exact h.throw _

theorem Eval.program_snd (limit : Nat) (scope : ScopeId) (source : Program)
    (store : Store) :
    (program limit scope source store).2 =
    (block (evaluator limit) scope source).after store := by
  rw [program, EvalM.after]
  cases block (evaluator limit) scope source store <;> rfl

end Scriptlet
