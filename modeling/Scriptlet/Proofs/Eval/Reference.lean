/-
A reference for running programs in which a `return` is an exception.  It is
raised by the `return` statement and caught where a function is called and where
a program ends; a fault is another exception, which nothing catches.  Nothing
else looks at either: every other construct only says what it runs in which
order.

The evaluator, which hands values on their way out from one construct to the
next instead, does the same from every store without such values in it.
-/
import Scriptlet.Proofs.Eval.Clean

namespace Scriptlet

/-- What ends a run early. -/
inductive Exit where
  | returned (value : Value)
  | fault (fault : Fault)

namespace Reference

/-- A run that may end early. -/
abbrev RunM := EStateM Exit Store

/-- Runs an expression in a scope. -/
abbrev Runner := ScopeId → Expr → RunM Value

/-- A run in which nothing returns. -/
def lift {α : Type} (run : EvalM α) : RunM α := fun store =>
  match run store with
  | .ok a after => .ok a after
  | .error fault after => .error (.fault fault) after

/-- Catches a `return`.  Without one, the value is that of the last
statement. -/
def catchReturn (run : RunM (Option Value)) : EvalM Value := fun store =>
  match run store with
  | .ok outcome after => .ok (outcome.getD .null) after
  | .error (.returned value) after => .ok value after
  | .error (.fault fault) after => .error fault after

mutual

def statement (run : Runner) (scope : ScopeId) : Statement → RunM (Option Value)
  | .binding name value => do
      let value ← run scope value
      modify (·.define scope name value)
      return none
  | .returning value => do
      let value ← run scope value
      throw (.returned value)
  | .expression value => do
      let value ← run scope value
      return some value
  | .block body => statements run scope none body

def statements (run : Runner) (scope : ScopeId) (last : Option Value) :
    List Statement → RunM (Option Value)
  | [] => return last
  | first :: rest => do
      let value ← statement run scope first
      statements run scope value rest

end

def values (run : Runner) (scope : ScopeId) : List Expr → RunM (List Value)
  | [] => return []
  | first :: rest => do
      let value ← run scope first
      let others ← values run scope rest
      return value :: others

def entries (run : Runner) (scope : ScopeId) (table : Table HashKey Value) :
    List (Expr × Expr) → RunM (Table HashKey Value)
  | [] => return table
  | (key, value) :: rest => do
      let key ← run scope key
      let key ← lift (EvalM.ofExcept key.toKey)
      let value ← run scope value
      entries run scope (table.insert key value) rest

/-- Calls a value; a `return` in the body of a function ends here. -/
def apply (run : Runner) (callee : Value) (arguments : List Value) :
    EvalM Value :=
  match callee with
  | .function closure => do
      if arguments.length ≠ closure.parameters.length then
        throw (.argumentCount arguments.length
          (.exactly closure.parameters.length))
      let scope ← Eval.enterCall closure.scope closure.parameters arguments
      catchReturn (statements run scope none closure.body)
  | .builtin builtin => builtin.call arguments
  | other => throw (.notCallable other.typeName)

def step (run : Runner) (scope : ScopeId) : Expr → RunM Value
  | .identifier name => lift (Eval.identifier scope name)
  | .integer value => return .integer value
  | .boolean value => return .boolean value
  | .string value => return .string value
  | .array elements => do
      let elements ← values run scope elements
      return .array elements
  | .hash pairs => do
      let table ← entries run scope [] pairs
      return .hash table
  | .unary op operand => do
      let operand ← run scope operand
      lift (EvalM.ofExcept (op.apply operand))
  | .binary op left right => do
      let left ← run scope left
      let right ← run scope right
      lift (EvalM.ofExcept (op.apply left right))
  | .conditional condition consequence alternative => do
      let condition ← run scope condition
      match if condition.isTruthy then some consequence else alternative with
      | some body =>
          let outcome ← statements run scope none body
          return outcome.getD .null
      | none => return .null
  | .function parameters body =>
      lift (modifyGet (·.makeFunction parameters body scope))
  | .call callee arguments => do
      let callee ← run scope callee
      let arguments ← values run scope arguments
      lift (apply run callee arguments)
  | .index collection position => do
      let collection ← run scope collection
      let position ← run scope position
      lift (EvalM.ofExcept (collection.index position))

/-- Runs an expression with `levels` of the `limit` levels left. -/
def eval (limit : Nat) : (levels : Nat) → Runner
  | 0 => fun _ _ => throw (.fault (.stackOverflow limit))
  | levels + 1 => step (eval limit levels)

/-- Runs a program in a scope; a `return` in it ends here. -/
def program (limit : Nat) (scope : ScopeId) (program : Program)
    (store : Store) : Value × Store :=
  match catchReturn (statements (eval limit limit) scope none program)
    store with
  | .ok value after => (value, after)
  | .error fault after => (.fault fault, after)

/-- The results of a run and of its reference, from a clean store.  A value on
its way out on one side is an exception on the other one. -/
inductive Matches {α : Type} (leaving? : α → Option Value) (good : α → Prop) :
    EStateM.Result Fault Store α → EStateM.Result Exit Store α → Prop
  | ok {a : α} {after : Store} (hstays : leaving? a = none) (hgood : good a)
      (hclean : after.Clean) : Matches leaving? good (.ok a after) (.ok a after)
  | leaving {a : α} {value : Value} {after : Store}
      (hleaves : leaving? a = some value) (hvalue : value.Clean)
      (hclean : after.Clean) :
      Matches leaving? good (.ok a after) (.error (.returned value) after)
  | fault {fault : Fault} {after : Store} (hclean : after.Clean) :
      Matches leaving? good (.error fault after) (.error (.fault fault) after)

/-- From every clean store the run does what the reference does. -/
def Follows {α : Type} (leaving? : α → Option Value) (good : α → Prop)
    (code : EvalM α) (ref : RunM α) : Prop :=
  ∀ store : Store, store.Clean → Matches leaving? good (code store) (ref store)

section Rules

variable {α β : Type} {leaving? : α → Option Value} {leaving?' : β →
  Option Value} {good : α → Prop} {good' : β → Prop}

theorem follows_pure {a : α} (hstays : leaving? a = none) (hgood : good a) :
    Follows leaving? good (pure a) (pure a) :=
  fun _ hstore => .ok hstays hgood hstore

theorem follows_throw (fault : Fault) :
    Follows leaving? good (throw fault) (throw (.fault fault)) :=
  fun _ hstore => .fault hstore

theorem follows_lift {code : EvalM α} (h : code.Keeps good)
    (hstays : ∀ a, good a → leaving? a = none) :
    Follows leaving? good code (lift code) := by
  intro store hstore
  have hkeeps := h store hstore
  rw [lift]
  cases hresult : code store with
  | ok a after =>
      rw [hresult] at hkeeps
      exact .ok (hstays a hkeeps.1) hkeeps.1 hkeeps.2
  | error fault after =>
      rw [hresult] at hkeeps
      exact .fault hkeeps

/-- One run after the other.  A result on its way out has to be handed on as it
is; the reference does not get to the second run then. -/
theorem Follows.bind {code : EvalM α} {ref : RunM α} {next : α → EvalM β}
    {next' : α → RunM β} (h : Follows leaving? good code ref)
    (hleaves : ∀ a value, leaving? a = some value →
      ∃ b, leaving?' b = some value ∧ next a = pure b)
    (hstays : ∀ a, leaving? a = none → good a →
      Follows leaving?' good' (next a) (next' a)) :
    Follows leaving?' good' (code >>= next) (ref >>= next') := by
  intro store hstore
  have hfirst := h store hstore
  change Matches leaving?' good' (EStateM.bind code next store)
    (EStateM.bind ref next' store)
  rw [EStateM.bind, EStateM.bind]
  generalize code store = result at hfirst
  generalize ref store = result' at hfirst
  cases hfirst with
  | @ok a after hstay hgood hclean => exact hstays a hstay hgood after hclean
  | @leaving a value after hleave hvalue hclean =>
      obtain ⟨b, hb, hnext⟩ := hleaves a value hleave
      have hrun : next a after = .ok b after := by
        rw [hnext]
        rfl
      change Matches leaving?' good' (next a after)
        (.error (.returned value) after)
      rw [hrun]
      exact .leaving hb hvalue hclean
  | fault hclean => exact .fault hclean

end Rules

/-- The value on its way out, if this is one. -/
def leaving? : Value → Option Value
  | .returning value => some value
  | _ => none

theorem leaving?_of_clean {value : Value} (h : value.Clean) :
    leaving? value = none := by
  cases h <;> rfl

theorem leaving?_of_outcome {outcome : Option Value}
    (h : ∀ value ∈ outcome, value.Clean) : outcome.bind leaving? = none := by
  cases outcome with
  | none => rfl
  | some value => exact leaving?_of_clean (h value rfl)

abbrev FollowsValue : EvalM Value → RunM Value → Prop :=
  Follows leaving? Value.Clean

abbrev FollowsOutcome : EvalM (Option Value) → RunM (Option Value) → Prop :=
  Follows (·.bind leaving?) (fun outcome => ∀ value ∈ outcome, value.Clean)

theorem follows_value {value : Value} (h : value.Clean) :
    FollowsValue (pure value) (pure value) :=
  follows_pure (leaving?_of_clean h) h

theorem follows_outcome {outcome : Option Value}
    (h : ∀ value ∈ outcome, value.Clean) :
    FollowsOutcome (pure outcome) (pure outcome) :=
  follows_pure (leaving?_of_outcome h) h

theorem follows_keeps {code : EvalM Value} (h : code.Keeps Value.Clean) :
    FollowsValue code (lift code) :=
  follows_lift h fun _ => leaving?_of_clean

theorem FollowsValue.proceed {code : EvalM Value} {ref : RunM Value}
    {next : Value → EvalM Value} {next' : Value → RunM Value}
    (h : FollowsValue code ref)
    (hnext : ∀ value, value.Clean → FollowsValue (next value) (next' value)) :
    FollowsValue (code.proceed next) (ref >>= next') := by
  refine Follows.bind h ?_ ?_
  · intro a value hleaves
    cases a <;> cases hleaves
    exact ⟨_, rfl, rfl⟩
  · intro a hstays hclean
    have hfollows := hnext a hclean
    cases hclean <;> exact hfollows

section Constructs

variable {eval : Evaluator} {run : Runner}

/-- The evaluator does to every expression what the reference does. -/
def Simulates (eval : Evaluator) (run : Runner) : Prop :=
  ∀ (scope : ScopeId) (e : Expr), FollowsValue (eval scope e) (run scope e)

mutual

theorem follows_statement (h : Simulates eval run) (scope : ScopeId)
    (s : Statement) :
    FollowsOutcome (Eval.statement eval scope s) (statement run scope s) := by
  match s with
  | .binding name value =>
      rw [Eval.statement, statement]
      refine Follows.bind (h scope value) ?_ ?_
      · intro a value hleaves
        cases a <;> cases hleaves
        exact ⟨_, rfl, rfl⟩
      · intro a hstays hclean
        have hdefine : FollowsOutcome
            (do modify (·.define scope name a); return none)
            (do modify (·.define scope name a); return none) :=
          fun store hstore => .ok rfl nofun (hstore.define scope name hclean)
        cases hclean <;> exact hdefine
  | .returning value =>
      rw [Eval.statement, statement, EvalM.proceed, map_bind]
      refine Follows.bind (h scope value) ?_ ?_
      · intro a value hleaves
        cases a <;> cases hleaves
        exact ⟨some (.returning value), rfl, rfl⟩
      · intro a hstays hclean
        have hraise :
            FollowsOutcome (pure (some (.returning a))) (throw (.returned a)) :=
          fun store hstore => .leaving rfl hclean hstore
        cases hclean <;> exact hraise
  | .expression value =>
      rw [Eval.statement, statement, map_eq_pure_bind]
      refine Follows.bind (h scope value) ?_ ?_
      · intro a value hleaves
        exact ⟨some a, hleaves, rfl⟩
      · intro a hstays hclean
        apply follows_outcome
        simpa using hclean
  | .block body =>
      rw [Eval.statement, statement]
      exact follows_statements h scope none nofun body

theorem follows_statements (h : Simulates eval run) (scope : ScopeId)
    (last : Option Value) (hlast : ∀ value ∈ last, value.Clean)
    (ss : List Statement) :
    FollowsOutcome (Eval.statements eval scope last ss)
      (statements run scope last ss) := by
  match ss with
  | [] =>
      rw [Eval.statements, statements]
      exact follows_outcome hlast
  | s :: ss =>
      rw [Eval.statements, statements]
      refine Follows.bind (follows_statement h scope s) ?_ ?_
      · intro a value hleaves
        obtain ⟨v, rfl, hv⟩ := Option.bind_eq_some_iff.1 hleaves
        cases v <;> cases hv
        exact ⟨_, rfl, rfl⟩
      · intro a hstays hclean
        have hrest := follows_statements h scope a hclean ss
        split
        · cases hstays
        · exact hrest

end

theorem follows_block (h : Simulates eval run) (scope : ScopeId)
    (body : Block) :
    FollowsOutcome (Eval.block eval scope body)
      (statements run scope none body) :=
  follows_statements h scope none nofun body

/-- The value of a block, where an expression is wanted. -/
theorem follows_body (h : Simulates eval run) (scope : ScopeId) (body : Block) :
    FollowsValue (do return (← Eval.block eval scope body).getD .null)
      (do return (← statements run scope none body).getD .null) := by
  refine Follows.bind (follows_block h scope body) ?_ ?_
  · intro outcome value hleaves
    obtain ⟨v, rfl, hv⟩ := Option.bind_eq_some_iff.1 hleaves
    exact ⟨v, hv, rfl⟩
  · intro outcome _ hclean
    cases outcome with
    | none => exact follows_value .null
    | some value => exact follows_value (hclean value rfl)

theorem follows_values (h : Simulates eval run) (scope : ScopeId)
    (es : List Expr) {next : List Value → EvalM Value}
    {next' : List Value → RunM Value}
    (hnext : ∀ values, (∀ value ∈ values, value.Clean) →
      FollowsValue (next values) (next' values)) :
    FollowsValue (Eval.values eval scope es next)
      (values run scope es >>= next') := by
  induction es generalizing next next' with
  | nil =>
      rw [Eval.values, values, pure_bind]
      exact hnext [] nofun
  | cons e es ih =>
      rw [Eval.values, values, bind_assoc]
      refine FollowsValue.proceed (h scope e) fun value hvalue => ?_
      rw [bind_assoc]
      simp only [pure_bind]
      apply ih
      intro others hothers
      exact hnext (value :: others) (List.forall_mem_cons.2 ⟨hvalue, hothers⟩)

theorem follows_entries (h : Simulates eval run) (scope : ScopeId)
    {table : Table HashKey Value} (htable : ∀ entry ∈ table, entry.2.Clean)
    (pairs : List (Expr × Expr)) :
    FollowsValue (Eval.entries eval scope table pairs)
      (entries run scope table pairs >>= fun table => pure (.hash table)) := by
  induction pairs generalizing table with
  | nil =>
      rw [Eval.entries, entries, pure_bind]
      exact follows_value (.hash htable)
  | cons pair pairs ih =>
      rw [Eval.entries, entries, bind_assoc]
      refine FollowsValue.proceed (h scope pair.1) fun key hkey => ?_
      rw [bind_assoc]
      have hkeeps : (EvalM.ofExcept key.toKey).Keeps fun _ => True :=
        EvalM.keeps_ofExcept fun _ _ => trivial
      refine Follows.bind (follows_lift hkeeps fun _ _ => rfl) nofun
        fun key _ _ => ?_
      rw [bind_assoc]
      refine FollowsValue.proceed (h scope pair.2) fun value hvalue => ?_
      apply ih
      intro entry hentry
      rcases Table.mem_insert hentry with rfl | hold
      · exact hvalue
      · exact htable entry hold

/-- The same result on both sides, and a clean one. -/
inductive Same :
    EStateM.Result Fault Store Value → EStateM.Result Fault Store Value → Prop
  | ok {value : Value} {after : Store} (hvalue : value.Clean)
      (hclean : after.Clean) :
      Same (.ok value after) (.ok value after)
  | fault {fault : Fault} {after : Store} (hclean : after.Clean) :
      Same (.error fault after) (.error fault after)

theorem Same.eq {result result' : EStateM.Result Fault Store Value}
    (h : Same result result') : result = result' := by
  cases h <;> rfl

/-- From every clean store two runs have the same result. -/
def Agree (code code' : EvalM Value) : Prop :=
  ∀ store : Store, store.Clean → Same (code store) (code' store)

theorem agree_of_keeps {code : EvalM Value} (h : code.Keeps Value.Clean) :
    Agree code code := by
  intro store hstore
  have hkeeps := h store hstore
  cases hresult : code store with
  | ok value after =>
      rw [hresult] at hkeeps
      exact .ok hkeeps.1 hkeeps.2
  | error fault after =>
      rw [hresult] at hkeeps
      exact .fault hkeeps

theorem agree_bind {α : Type} {good : α → Prop} {first : EvalM α}
    {next next' : α → EvalM Value} (hfirst : first.Keeps good)
    (hnext : ∀ a, good a → Agree (next a) (next' a)) :
    Agree (first >>= next) (first >>= next') := by
  intro store hstore
  have hkeeps := hfirst store hstore
  cases hresult : first store with
  | ok a after =>
      rw [hresult] at hkeeps
      rw [EvalM.bind_of_ok hresult, EvalM.bind_of_ok hresult]
      exact hnext a hkeeps.1 after hkeeps.2
  | error fault after =>
      rw [hresult] at hkeeps
      rw [EvalM.bind_of_error hresult, EvalM.bind_of_error hresult]
      exact .fault hkeeps

theorem Agree.follows {code code' : EvalM Value} (h : Agree code code') :
    FollowsValue code (lift code') := by
  intro store hstore
  have hsame := h store hstore
  rw [lift]
  generalize code store = result at hsame
  generalize code' store = result' at hsame
  cases hsame with
  | ok hvalue hclean => exact .ok (leaving?_of_clean hvalue) hvalue hclean
  | fault hclean => exact .fault hclean

/-- Where a `return` is caught, both sides go on with the same value. -/
theorem agree_catchReturn {code : EvalM (Option Value)}
    {ref : RunM (Option Value)} (h : FollowsOutcome code ref) :
    Agree (code >>= fun outcome => pure (.ofOutcome outcome))
      (catchReturn ref) := by
  intro store hstore
  have hmatches := h store hstore
  change Same
    (EStateM.bind code (fun outcome => pure (.ofOutcome outcome)) store) _
  rw [EStateM.bind, catchReturn]
  generalize code store = result at hmatches
  generalize ref store = result' at hmatches
  cases hmatches with
  | @ok outcome after hstays hgood hclean =>
      cases outcome with
      | none => exact .ok .null hclean
      | some value =>
          have hvalue := hgood value rfl
          cases hvalue <;> exact .ok (hgood _ rfl) hclean
  | @leaving outcome value after hleaves hvalue hclean =>
      obtain ⟨v, rfl, hv⟩ := Option.bind_eq_some_iff.1 hleaves
      cases v <;> cases hv
      exact .ok hvalue hclean
  | fault hclean => exact .fault hclean

theorem agree_apply (h : Simulates eval run) (callee : Value)
    {arguments : List Value}
    (harguments : ∀ argument ∈ arguments, argument.Clean) :
    Agree (Eval.apply eval callee arguments) (apply run callee arguments) := by
  cases callee with
  | function closure =>
      rw [Eval.apply, Eval.callClosure, apply]
      split
      · have hthrow : EvalM.Keeps (fun _ : PUnit => False)
            (throw (.argumentCount arguments.length
              (.exactly closure.parameters.length))) := EvalM.keeps_throw _
        exact agree_bind hthrow fun _ hnever => hnever.elim
      · apply agree_bind
          (Eval.keeps_enterCall closure.scope closure.parameters harguments)
        intro scope _
        exact agree_catchReturn (follows_block h scope closure.body)
  | builtin builtin => exact agree_of_keeps (builtin.keeps_call harguments)
  | _ => exact agree_of_keeps (EvalM.keeps_throw _)

theorem follows_step (h : Simulates eval run) :
    Simulates (Eval.step eval) (step run) := by
  intro scope e
  cases e with
  | identifier name => exact follows_keeps (Eval.keeps_identifier scope name)
  | integer value => exact follows_value (.integer value)
  | boolean value => exact follows_value (.boolean value)
  | string value => exact follows_value (.string value)
  | array elements =>
      exact follows_values h scope elements fun _ hvalues =>
        follows_value (.array hvalues)
  | hash pairs => exact follows_entries h scope (List.forall_mem_nil _) pairs
  | unary op operand =>
      refine FollowsValue.proceed (h scope operand) fun value _ => ?_
      exact follows_keeps (EvalM.keeps_ofExcept fun _ h =>
        .of_isPlain (UnaryOp.isPlain_of_apply h))
  | binary op left right =>
      refine FollowsValue.proceed (h scope left) fun _ _ => ?_
      refine FollowsValue.proceed (h scope right) fun _ _ => ?_
      exact follows_keeps (EvalM.keeps_ofExcept fun _ h =>
        .of_isPlain (BinaryOp.isPlain_of_apply h))
  | conditional condition consequence alternative =>
      refine FollowsValue.proceed (h scope condition) fun value _ => ?_
      rw [Eval.branch]
      cases if value.isTruthy then some consequence else alternative with
      | none => exact follows_value .null
      | some body => exact follows_body h scope body
  | function parameters body =>
      exact follows_keeps (Eval.keeps_makeFunction parameters body scope)
  | call callee arguments =>
      refine FollowsValue.proceed (h scope callee) fun value _ => ?_
      apply follows_values h scope arguments
      intro values hvalues
      exact (agree_apply h value hvalues).follows
  | index collection position =>
      refine FollowsValue.proceed (h scope collection) fun _ hcollection => ?_
      refine FollowsValue.proceed (h scope position) fun _ _ => ?_
      exact follows_keeps (EvalM.keeps_ofExcept fun _ => hcollection.index)

end Constructs

theorem simulates_eval (limit levels : Nat) :
    Simulates (Expr.eval limit levels) (eval limit levels) := by
  induction levels with
  | zero => exact fun _ _ => follows_throw _
  | succ levels ih => exact follows_step ih

end Reference

namespace Eval

/-- A program ends as the reference says, and so does the call of a value: with
the same value or fault, the same bindings in every scope and the same text
printed. -/
theorem agrees_with_reference (limit : Nat) (store : Store)
    (hstore : store.Clean) :
    (∀ (scope : ScopeId) (source : Program),
        program limit scope source store =
          Reference.program limit scope source store) ∧
      ∀ (levels : Nat) (callee : Value) (arguments : List Value),
        (∀ argument ∈ arguments, argument.Clean) →
          apply (Expr.eval limit levels) callee arguments store =
            Reference.apply (Reference.eval limit levels) callee
            arguments store := by
  constructor
  · intro scope source
    have hfollows :=
      Reference.follows_statements (Reference.simulates_eval limit limit) scope
        none nofun source
    have hsame := (Reference.agree_catchReturn hfollows store hstore).eq
    rw [Reference.program, ← hsame]
    change program limit scope source store =
      match EStateM.bind (block (evaluator limit) scope source)
        (fun outcome => pure (.ofOutcome outcome)) store with
      | .ok value after => (value, after)
      | .error fault after => (.fault fault, after)
    rw [program, EStateM.bind]
    cases block (evaluator limit) scope source store <;> rfl
  · intro levels callee arguments harguments
    have hagree :=
      Reference.agree_apply (Reference.simulates_eval limit levels)
        callee harguments
    exact (hagree store hstore).eq

/-- A `return` in an operand of an argument of a call. -/
theorem agrees_with_reference_on_return :
    let store := (Store.empty.addScope none).2
    let source : Program :=
      [.binding "f" (.function ["x"]
        [.expression (.call (.identifier "puts")
          [.unary .not
            (.conditional (.identifier "x") [.returning (.integer 1)] none)])]),
        .expression (.call (.identifier "f") [.boolean true])]
    store.Clean ∧
      program 8 0 source store = Reference.program 8 0 source store := by
  intro store source
  have hclean : store.Clean := Store.clean_empty.addScope none
  exact ⟨hclean, (agrees_with_reference 8 store hclean).1 0 source⟩

end Eval

end Scriptlet
