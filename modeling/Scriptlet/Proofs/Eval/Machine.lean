/-
The evaluator as a machine.  Its routines call each other as they like, on
bodies of functions too, which are no part of the expression that is run;
nothing limits the steps, and only one of the routines looks at a count of the
expressions that are being run.  With a limit on that count the machine always
comes to an end, with the result of the evaluator.  Without one it comes to an
end exactly if some limit is high enough.
-/
import Scriptlet.Proofs.Eval.Frame
import Scriptlet.Proofs.Machine

namespace Scriptlet

/-- What has a value keeps it as long as no scope is changed. -/
theorem Store.Untouched.lookup {before after : Store}
    (h : before.Untouched after) {id : ScopeId} {name : String} {value : Value}
    (hvalue : before.lookup id name = some value) :
    after.lookup id name = some value := by
  fun_induction before.lookup id name with
  | case1 id hscope => cases hvalue
  | case2 id scope hscope found hfound =>
      rw [Store.lookup, h id scope hscope]
      simp only [hfound]
      exact hvalue
  | case3 id scope hscope hnone parent hparent holder ih =>
      rw [Store.lookup, h id scope hscope]
      simp only [hnone, hparent, if_pos holder]
      exact ih hvalue
  | case4 id scope hscope hnone parent hparent holder => cases hvalue
  | case5 id scope hscope hnone hparent => cases hvalue

namespace EvalM

variable {α β : Type}

/-- What a run ends with. -/
def result (run : EvalM α) (store : Store) : Except Fault α :=
  match run store with
  | .ok a _ => .ok a
  | .error fault _ => .error fault

theorem result_of_ok {run : EvalM α} {store after : Store} {a : α}
    (h : run store = .ok a after) : run.result store = .ok a := by
  rw [result, h]

theorem result_of_error {run : EvalM α} {store after : Store} {fault : Fault}
    (h : run store = .error fault after) : run.result store = .error fault := by
  rw [result, h]

theorem after_of_ok {run : EvalM α} {store later : Store} {a : α}
    (h : run store = .ok a later) : run.after store = later := by
  rw [after, h]

theorem after_of_error {run : EvalM α} {store later : Store} {fault : Fault}
    (h : run store = .error fault later) : run.after store = later := by
  rw [after, h]

end EvalM

namespace Eval

inductive Routine where
  | program (scope : ScopeId) (source : Program)
  | block (scope : ScopeId) (body : Block)
  | statement (scope : ScopeId) (s : Statement)
  /-- Counts the expression and runs it, unless there are too many. -/
  | expression (scope : ScopeId) (e : Expr)
  | inner (scope : ScopeId) (e : Expr)
  | apply (callee : Value) (arguments : List Value)

/-- The store, and the number of expressions that are being run. -/
structure Memory where
  store : Store
  depth : Nat

namespace Routine

abbrev Answer : Routine → Type
  | program .. => Value
  | block .. | statement .. => Except Fault (Option Value)
  | expression .. | inner .. | apply .. => Except Fault Value

/-- Code that may end with a fault. -/
abbrev CodeM := ExceptT Fault (Code Answer Memory)

variable {α : Type}

/-- What a run ends with, when it does not count. -/
def ending (run : EvalM α) (memory : Memory) : Except Fault α × Memory :=
  (run.result memory.store, { memory with store := run.after memory.store })

/-- What needs no routine is done in one step. -/
def direct (run : EvalM α) : CodeM α :=
  ExceptT.mk (Code.perform (ending run))

def evaluate (scope : ScopeId) (e : Expr) : CodeM Value :=
  ExceptT.mk (Code.invoke (Routine.expression scope e))

def runBlock (scope : ScopeId) (body : Block) : CodeM (Option Value) :=
  ExceptT.mk (Code.invoke (Routine.block scope body))

def runStatement (scope : ScopeId) (s : Statement) : CodeM (Option Value) :=
  ExceptT.mk (Code.invoke (Routine.statement scope s))

def applyValue (callee : Value) (arguments : List Value) : CodeM Value :=
  ExceptT.mk (Code.invoke (Routine.apply callee arguments))

def proceed (code : CodeM Value) (next : Value → CodeM Value) :
    CodeM Value := do
  match ← code with
  | .returning value => return .returning value
  | value => next value

def ofStatement (scope : ScopeId) : Statement → CodeM (Option Value)
  | .binding name value => do
      match ← evaluate scope value with
      | .returning value => return some (.returning value)
      | value =>
          direct (modify (·.define scope name value))
          return none
  | .returning value => do
      return some (← proceed (evaluate scope value) fun value =>
        return .returning value)
  | .expression value => do
      return some (← evaluate scope value)
  | .block body => runBlock scope body

def ofStatements (scope : ScopeId) (last : Option Value) :
    List Statement → CodeM (Option Value)
  | [] => return last
  | first :: rest => do
      match ← runStatement scope first with
      | some (.returning value) => return some (.returning value)
      | value => ofStatements scope value rest

def ofValues (scope : ScopeId) :
    List Expr → (List Value → CodeM Value) → CodeM Value
  | [], next => next []
  | first :: rest, next =>
      proceed (evaluate scope first) fun value =>
        ofValues scope rest fun others => next (value :: others)

def ofEntries (scope : ScopeId) (table : Table HashKey Value) :
    List (Expr × Expr) → CodeM Value
  | [] => return .hash table
  | (key, value) :: rest =>
      proceed (evaluate scope key) fun key => do
        let key ← direct (EvalM.ofExcept key.toKey)
        proceed (evaluate scope value) fun value =>
          ofEntries scope (table.insert key value) rest

def ofApply (callee : Value) (arguments : List Value) : CodeM Value :=
  match callee with
  | .function closure => do
      if arguments.length ≠ closure.parameters.length then
        throw (.argumentCount arguments.length
          (.exactly closure.parameters.length))
      let scope ← direct (enterCall closure.scope closure.parameters arguments)
      return .ofOutcome (← runBlock scope closure.body)
  | .builtin builtin => direct (builtin.call arguments)
  | other => throw (.notCallable other.typeName)

def ofBranch (scope : ScopeId) (condition : Value) (consequence : Block)
    (alternative : Option Block) : CodeM Value := do
  match if condition.isTruthy then some consequence else alternative with
  | some body => return (← runBlock scope body).getD .null
  | none => return .null

def ofExpr (scope : ScopeId) : Expr → CodeM Value
  | .identifier name => direct (identifier scope name)
  | .integer value => return .integer value
  | .boolean value => return .boolean value
  | .string value => return .string value
  | .array elements =>
      ofValues scope elements fun elements => return .array elements
  | .hash pairs => ofEntries scope [] pairs
  | .unary op operand =>
      proceed (evaluate scope operand) fun operand =>
        direct (EvalM.ofExcept (op.apply operand))
  | .binary op left right =>
      proceed (evaluate scope left) fun left =>
        proceed (evaluate scope right) fun right =>
          direct (EvalM.ofExcept (op.apply left right))
  | .conditional condition consequence alternative =>
      proceed (evaluate scope condition) fun condition =>
        ofBranch scope condition consequence alternative
  | .function parameters body =>
      direct (modifyGet (·.makeFunction parameters body scope))
  | .call callee arguments =>
      proceed (evaluate scope callee) fun callee =>
        ofValues scope arguments fun arguments => applyValue callee arguments
  | .index collection position =>
      proceed (evaluate scope collection) fun collection =>
        proceed (evaluate scope position) fun position =>
          direct (EvalM.ofExcept (collection.index position))

/-- The fault of an expression that is one too many. -/
def refusal (ceiling : Option Nat) (depth : Nat) : Option Fault :=
  match ceiling with
  | some limit => if limit ≤ depth then some (.stackOverflow limit) else none
  | none => none

/-- Runs an expression, and counts it meanwhile. -/
def ofCounted (ceiling : Option Nat) (scope : ScopeId) (e : Expr) :
    CodeM Value :=
  ExceptT.mk (.act id fun memory =>
    match refusal ceiling memory.depth with
    | some fault => .done (.error fault)
    | none =>
        .act (fun memory => { memory with depth := memory.depth + 1 }) fun _ =>
          .call (.inner scope e) fun answer =>
            .act (fun memory => { memory with depth := memory.depth - 1 })
              fun _ => .done answer)

def body (ceiling : Option Nat) :
    (routine : Routine) → Code Answer Memory routine.Answer
  | .program scope source =>
      .act (fun memory => { memory with depth := 0 }) fun _ =>
        .call (.block scope source) fun answer =>
          match answer with
          | .ok outcome => .done (.ofOutcome outcome)
          | .error fault => .done (.fault fault)
  | .block scope body => (ofStatements scope none body).run
  | .statement scope s => (ofStatement scope s).run
  | .expression scope e => (ofCounted ceiling scope e).run
  | .inner scope e => (ofExpr scope e).run
  | .apply callee arguments => (ofApply callee arguments).run

end Routine

/-- The evaluator with a limit on the expressions that are being run, or without
one. -/
def machine (ceiling : Option Nat) : Machine where
  Memory := Memory
  Routine := Routine
  Answer := Routine.Answer
  body := Routine.body ceiling

/-- The expressions that are being run. -/
def evaluations (active : List Routine) : Nat :=
  active.countP fun routine => routine matches .inner ..

/-- No more expressions are being run than were counted, and not too many
were. -/
structure Fits (ceiling : Option Nat) (active : List Routine)
    (memory : Memory) : Prop where
  evaluations_le : evaluations active ≤ memory.depth
  depth_le : ∀ limit ∈ ceiling, memory.depth ≤ limit

/-- The code does what the evaluator does and leaves the count as it was.  Where
nothing is refused, this is only said of runs that are within the limit of the
evaluator. -/
def Follows {α : Type} (ceiling : Option Nat) (limit depth : Nat)
    (code : Routine.CodeM α) (run : EvalM α) : Prop :=
  ∀ (active : List Routine) (store : Store),
    Fits ceiling active ⟨store, depth⟩ →
    (ceiling = none ∧ run.result store = .error (.stackOverflow limit)) ∨
      Code.Yields (Routine.body ceiling) (Fits ceiling) active code.run
        ⟨store, depth⟩ (run.result store) ⟨run.after store, depth⟩

namespace Follows

variable {ceiling : Option Nat} {limit depth : Nat} {α β : Type}

theorem pure (a : α) : Follows ceiling limit depth (pure a) (pure a) :=
  fun _ _ hfits => Or.inr (.done hfits)

theorem throw (fault : Fault) :
    Follows ceiling limit depth (throw fault : Routine.CodeM α) (throw fault) :=
  fun _ _ hfits => Or.inr (.done hfits)

theorem direct (run : EvalM α) :
    Follows ceiling limit depth (Routine.direct run) run :=
  fun _ _ hfits =>
    Or.inr (.act hfits (.done ⟨hfits.evaluations_le, hfits.depth_le⟩))

theorem bind {code : Routine.CodeM α} {run : EvalM α}
    {next : α → Routine.CodeM β} {next' : α → EvalM β}
    (h : Follows ceiling limit depth code run)
    (hnext : ∀ a, Follows ceiling limit depth (next a) (next' a)) :
    Follows ceiling limit depth (code >>= next) (run >>= next') := by
  intro active store hfits
  have hfirst := h active store hfits
  cases hrun : run store with
  | error fault between =>
      rw [EvalM.result_of_error hrun, EvalM.after_of_error hrun] at hfirst
      rw [EvalM.result_of_error (EvalM.bind_of_error hrun),
        EvalM.after_of_error (EvalM.bind_of_error hrun)]
      rcases hfirst with ⟨hceiling, hfault⟩ | hyields
      · exact Or.inl ⟨hceiling, congrArg Except.error (Except.error.inj hfault)⟩
      · exact Or.inr (hyields.bind (.done hyields.ok_end))
  | ok a between =>
      rw [EvalM.result_of_ok hrun, EvalM.after_of_ok hrun] at hfirst
      have hresult : (run >>= next').result store =
          (next' a).result between := by
        rw [EvalM.result, EvalM.result, EvalM.bind_of_ok hrun]
      have hafter : (run >>= next').after store = (next' a).after between := by
        rw [EvalM.after, EvalM.after, EvalM.bind_of_ok hrun]
      rw [hresult, hafter]
      rcases hfirst with ⟨_, hfault⟩ | hyields
      · cases hfault
      · rcases hnext a active between hyields.ok_end with hover | hrest
        · exact Or.inl hover
        · exact Or.inr (hyields.bind hrest)

theorem map {code : Routine.CodeM α} {run : EvalM α} (f : α → β)
    (h : Follows ceiling limit depth code run) :
    Follows ceiling limit depth (do return f (← code)) (f <$> run) := by
  rw [map_eq_pure_bind]
  exact h.bind fun a => .pure (f a)

theorem proceed {code : Routine.CodeM Value} {run : EvalM Value}
    {next : Value → Routine.CodeM Value} {next' : Value → EvalM Value}
    (h : Follows ceiling limit depth code run)
    (hnext : ∀ value, Follows ceiling limit depth (next value) (next' value)) :
    Follows ceiling limit depth (Routine.proceed code next)
      (run.proceed next') := by
  refine h.bind fun value => ?_
  cases value with
  | returning value => exact .pure _
  | _ => exact hnext _

end Follows

theorem fits_zero {ceiling : Option Nat} {active : List Routine} (store : Store)
    (h : evaluations active = 0) : Fits ceiling active ⟨store, 0⟩ :=
  ⟨Nat.le_of_eq h, fun bound _ => Nat.zero_le bound⟩

theorem evaluations_cons (routine : Routine) (active : List Routine) :
    evaluations (routine :: active) =
      evaluations [routine] + evaluations active := by
  rw [evaluations, evaluations, evaluations, ← List.countP_append,
    List.singleton_append]

/-- A routine that runs no expression itself leaves the count of those alone. -/
theorem Fits.push {ceiling : Option Nat} {active : List Routine}
    {memory : Memory} (h : Fits ceiling active memory) {routine : Routine}
    (hroutine : evaluations [routine] = 0) :
    Fits ceiling (routine :: active) memory := by
  refine ⟨?_, h.depth_le⟩
  rw [evaluations_cons, hroutine, Nat.zero_add]
  exact h.evaluations_le

section Constructs

variable {ceiling : Option Nat} {limit depth : Nat} {eval : Evaluator}

/-- Calling a routine does what its code does. -/
theorem Follows.invoke {α : Type} {called code : Routine.CodeM α}
    {run : EvalM α} {routine : Routine}
    (h : Follows ceiling limit depth code run)
    (hroutine : evaluations [routine] = 0)
    (hcalled :
      ∀ {active : List Routine} {memory memory' : Memory}
        {result : Except Fault α},
      Fits ceiling active memory → Fits ceiling active memory' →
      Code.Yields (Routine.body ceiling) (Fits ceiling) (routine :: active)
        code.run memory result memory' →
      Code.Yields (Routine.body ceiling) (Fits ceiling) active
        called.run memory result memory') :
    Follows ceiling limit depth called run := by
  intro active store hfits
  refine (h (routine :: active) store (hfits.push hroutine)).imp_right
    fun hyields => ?_
  exact hcalled hfits ⟨hfits.evaluations_le, hfits.depth_le⟩ hyields

theorem follows_runStatement {scope : ScopeId} {s : Statement}
    {run : EvalM (Option Value)}
    (h : Follows ceiling limit depth (Routine.ofStatement scope s) run) :
    Follows ceiling limit depth (Routine.runStatement scope s) run :=
  h.invoke (rfl : evaluations [.statement scope s] = 0)
    fun hfits hfits' hyields =>
    .call hfits hyields (.done hfits')

theorem follows_runBlock {scope : ScopeId} {body : Block}
    {run : EvalM (Option Value)}
    (h :
      Follows ceiling limit depth (Routine.ofStatements scope none body) run) :
    Follows ceiling limit depth (Routine.runBlock scope body) run :=
  h.invoke (rfl : evaluations [.block scope body] = 0)
    fun hfits hfits' hyields =>
    .call hfits hyields (.done hfits')

theorem follows_applyValue {callee : Value} {arguments : List Value}
    {run : EvalM Value}
    (h : Follows ceiling limit depth (Routine.ofApply callee arguments) run) :
    Follows ceiling limit depth (Routine.applyValue callee arguments) run :=
  h.invoke (rfl : evaluations [.apply callee arguments] = 0)
    fun hfits hfits' hyields =>
    .call hfits hyields (.done hfits')

theorem follows_evaluate {scope : ScopeId} {e : Expr} {run : EvalM Value}
    (h : Follows ceiling limit depth (Routine.ofCounted ceiling scope e) run) :
    Follows ceiling limit depth (Routine.evaluate scope e) run :=
  h.invoke (rfl : evaluations [.expression scope e] = 0)
    fun hfits hfits' hyields =>
    .call hfits hyields (.done hfits')

/-- Every expression is run as by the evaluator. -/
def Simulates (ceiling : Option Nat) (limit depth : Nat) (eval : Evaluator) :
    Prop :=
  ∀ (scope : ScopeId) (e : Expr),
    Follows ceiling limit depth (Routine.evaluate scope e) (eval scope e)

mutual

theorem follows_ofStatement (h : Simulates ceiling limit depth eval)
    (scope : ScopeId) (s : Statement) :
    Follows ceiling limit depth (Routine.ofStatement scope s)
      (statement eval scope s) := by
  match s with
  | .binding name value =>
      rw [Routine.ofStatement, statement]
      refine (h scope value).bind fun value => ?_
      cases value with
      | returning value => exact .pure _
      | _ => exact (Follows.direct _).bind fun _ => .pure none
  | .returning value =>
      rw [Routine.ofStatement, statement]
      exact ((h scope value).proceed fun value => .pure _).map some
  | .expression value =>
      rw [Routine.ofStatement, statement]
      exact (h scope value).map some
  | .block body =>
      rw [Routine.ofStatement, statement]
      exact follows_runBlock (follows_ofStatements h scope none body)

theorem follows_ofStatements (h : Simulates ceiling limit depth eval)
    (scope : ScopeId) (last : Option Value) (ss : List Statement) :
    Follows ceiling limit depth (Routine.ofStatements scope last ss)
      (statements eval scope last ss) := by
  match ss with
  | [] =>
      rw [Routine.ofStatements, statements]
      exact .pure last
  | s :: ss =>
      rw [Routine.ofStatements, statements]
      refine (follows_runStatement (follows_ofStatement h scope s)).bind
        fun outcome => ?_
      have hrest := follows_ofStatements h scope outcome ss
      cases outcome with
      | none => exact hrest
      | some value =>
          cases value with
          | returning value => exact .pure _
          | _ => exact hrest

end

theorem follows_block (h : Simulates ceiling limit depth eval) (scope : ScopeId)
    (body : Block) :
    Follows ceiling limit depth (Routine.runBlock scope body)
      (block eval scope body) :=
  follows_runBlock (follows_ofStatements h scope none body)

theorem follows_ofValues (h : Simulates ceiling limit depth eval)
    (scope : ScopeId) (es : List Expr) {next : List Value → Routine.CodeM Value}
    {next' : List Value → EvalM Value}
    (hnext : ∀ values,
      Follows ceiling limit depth (next values) (next' values)) :
    Follows ceiling limit depth (Routine.ofValues scope es next)
      (values eval scope es next') := by
  induction es generalizing next next' with
  | nil => exact hnext []
  | cons e es ih =>
      refine (h scope e).proceed fun value => ?_
      exact ih fun others => hnext (value :: others)

theorem follows_ofEntries (h : Simulates ceiling limit depth eval)
    (scope : ScopeId) (table : Table HashKey Value)
    (pairs : List (Expr × Expr)) :
    Follows ceiling limit depth (Routine.ofEntries scope table pairs)
      (entries eval scope table pairs) := by
  induction pairs generalizing table with
  | nil => exact .pure _
  | cons pair pairs ih =>
      refine (h scope pair.1).proceed fun key => ?_
      refine (Follows.direct _).bind fun key => ?_
      refine (h scope pair.2).proceed fun value => ?_
      exact ih (table.insert key value)

theorem follows_ofApply (h : Simulates ceiling limit depth eval)
    (callee : Value) (arguments : List Value) :
    Follows ceiling limit depth (Routine.ofApply callee arguments)
      (apply eval callee arguments) := by
  cases callee with
  | function closure =>
      by_cases hlength : arguments.length = closure.parameters.length
      · rw [apply, callClosure, Routine.ofApply, if_neg (not_not_intro hlength),
          if_neg (not_not_intro hlength)]
        refine (Follows.direct _).bind fun scope => ?_
        exact (follows_block h scope closure.body).bind fun outcome => .pure _
      · rw [apply, callClosure, Routine.ofApply, if_pos hlength, if_pos hlength]
        exact .throw _
  | builtin builtin => exact .direct _
  | _ => exact .throw _

theorem follows_ofBranch (h : Simulates ceiling limit depth eval)
    (scope : ScopeId) (condition : Value) (consequence : Block)
    (alternative : Option Block) :
    Follows ceiling limit depth
      (Routine.ofBranch scope condition consequence alternative)
      (branch eval scope condition consequence alternative) := by
  rw [Routine.ofBranch, branch]
  cases if condition.isTruthy then some consequence else alternative with
  | some body => exact (follows_block h scope body).bind fun outcome => .pure _
  | none => exact .pure _

theorem follows_ofExpr (h : Simulates ceiling limit depth eval)
    (scope : ScopeId) (e : Expr) :
    Follows ceiling limit depth (Routine.ofExpr scope e)
      (step eval scope e) := by
  cases e with
  | identifier name => exact .direct _
  | integer value => exact .pure _
  | boolean value => exact .pure _
  | string value => exact .pure _
  | array elements => exact follows_ofValues h scope elements fun _ => .pure _
  | hash pairs => exact follows_ofEntries h scope [] pairs
  | unary op operand => exact (h scope operand).proceed fun _ => .direct _
  | binary op left right =>
      refine (h scope left).proceed fun _ => ?_
      exact (h scope right).proceed fun _ => .direct _
  | conditional condition consequence alternative =>
      refine (h scope condition).proceed fun value => ?_
      exact follows_ofBranch h scope value consequence alternative
  | function parameters body => exact .direct _
  | call callee arguments =>
      refine (h scope callee).proceed fun value => ?_
      refine follows_ofValues h scope arguments fun values => ?_
      exact follows_applyValue (follows_ofApply h value values)
  | index collection position =>
      refine (h scope collection).proceed fun _ => ?_
      exact (h scope position).proceed fun _ => .direct _

end Constructs

section

variable {ceiling : Option Nat} {limit depth : Nat} {active : List Routine}
  {scope : ScopeId} {e : Expr} {store after : Store}

/-- One more expression is counted. -/
theorem Fits.count (h : Fits ceiling active ⟨store, depth⟩)
    (hrefusal : Routine.refusal ceiling depth = none) :
    Fits ceiling active ⟨store, depth + 1⟩ where
  evaluations_le := Nat.le_succ_of_le h.evaluations_le
  depth_le := by
    rintro limit ⟨⟩
    refine Nat.lt_of_not_le fun hle => ?_
    rw [Routine.refusal, if_pos hle] at hrefusal
    cases hrefusal

/-- An expression that was counted is run. -/
theorem Fits.run (h : Fits ceiling active ⟨store, depth⟩)
    (hrefusal : Routine.refusal ceiling depth = none) :
    Fits ceiling (.inner scope e :: active) ⟨store, depth + 1⟩ := by
  refine ⟨?_, (h.count hrefusal).depth_le⟩
  rw [evaluations_cons, Nat.add_comm]
  exact Nat.succ_le_succ h.evaluations_le

theorem yields_refused {fault : Fault}
    (hfits : Fits ceiling active ⟨store, depth⟩)
    (hrefusal : Routine.refusal ceiling depth = some fault) :
    Code.Yields (Routine.body ceiling) (Fits ceiling) active
      (Routine.ofCounted ceiling scope e).run ⟨store, depth⟩ (.error fault)
        ⟨store, depth⟩ := by
  refine .act hfits ?_
  simp only [hrefusal]
  exact .done hfits

theorem yields_counted {answer : Except Fault Value}
    (hfits : Fits ceiling active ⟨store, depth⟩)
    (hrefusal : Routine.refusal ceiling depth = none)
    (h : Code.Yields (Routine.body ceiling) (Fits ceiling)
      (.inner scope e :: active)
      (Routine.ofExpr scope e).run ⟨store, depth + 1⟩ answer
        ⟨after, depth + 1⟩) :
    Code.Yields (Routine.body ceiling) (Fits ceiling) active
      (Routine.ofCounted ceiling scope e).run ⟨store, depth⟩ answer
        ⟨after, depth⟩ := by
  have hafter : Fits ceiling active ⟨after, depth⟩ :=
    ⟨hfits.evaluations_le, hfits.depth_le⟩
  refine .act hfits ?_
  simp only [hrefusal]
  refine .act hfits (.call (hfits.count hrefusal) h ?_)
  exact .act (hafter.count hrefusal) (.done hafter)

/-- With the levels that are left, an expression is run as by the evaluator. -/
theorem follows_ofCounted (hceiling : ∀ bound ∈ ceiling, bound = limit)
    {levels : Nat} (h : depth + levels = limit) (scope : ScopeId) (e : Expr) :
    Follows ceiling limit depth (Routine.ofCounted ceiling scope e)
      (Expr.eval limit levels scope e) := by
  induction levels generalizing depth scope e with
  | zero =>
      intro active store hfits
      cases ceiling with
      | none => exact Or.inl ⟨rfl, rfl⟩
      | some bound =>
          obtain rfl := hceiling bound rfl
          have hle : bound ≤ depth := by omega
          refine Or.inr (yields_refused hfits ?_)
          rw [Routine.refusal, if_pos hle]
  | succ levels ih =>
      intro active store hfits
      have hrefusal : Routine.refusal ceiling depth = none := by
        cases ceiling with
        | none => rfl
        | some bound =>
            obtain rfl := hceiling bound rfl
            rw [Routine.refusal, if_neg (by omega)]
      have hdeeper :
          Simulates ceiling limit (depth + 1) (Expr.eval limit levels) :=
        fun scope e => follows_evaluate (ih (by omega) scope e)
      have hinner :=
        follows_ofExpr hdeeper scope e (.inner scope e :: active) store
          (hfits.run hrefusal)
      exact hinner.imp_right (yields_counted hfits hrefusal)

theorem simulates_eval (hceiling : ∀ bound ∈ ceiling, bound = limit)
    {levels : Nat} (h : depth + levels = limit) :
    Simulates ceiling limit depth (Expr.eval limit levels) :=
  fun scope e => follows_evaluate (follows_ofCounted hceiling h scope e)

end

/-- What a routine gives, according to the evaluator, and what it leaves. -/
def Routine.answer (limit : Nat) (memory : Memory) :
    (routine : Routine) → routine.Answer × Memory
  | .program scope source =>
      ((Eval.program limit scope source memory.store).1,
        ⟨(Eval.program limit scope source memory.store).2, 0⟩)
  | .block scope body =>
      ending (Eval.block (Expr.eval limit (limit - memory.depth)) scope body)
        memory
  | .statement scope s =>
      ending (Eval.statement (Expr.eval limit (limit - memory.depth)) scope s)
        memory
  | .expression scope e =>
      ending (Expr.eval limit (limit - memory.depth) scope e) memory
  | .inner scope e =>
      ending (Eval.step (Expr.eval limit (limit - memory.depth)) scope e) memory
  | .apply callee arguments =>
      ending
        (Eval.apply (Expr.eval limit (limit - memory.depth)) callee arguments)
        memory

theorem Follows.yields {α : Type} {limit depth : Nat} {code : Routine.CodeM α}
    {run : EvalM α} (h : Follows (some limit) limit depth code run)
    {active : List Routine} {store : Store}
    (hfits : Fits (some limit) active ⟨store, depth⟩) :
    Code.Yields (Routine.body (some limit)) (Fits (some limit)) active code.run
      ⟨store, depth⟩
      (Routine.ending run ⟨store, depth⟩).1
      (Routine.ending run ⟨store, depth⟩).2 := by
  rcases h active store hfits with ⟨hnone, -⟩ | hyields
  · cases hnone
  · exact hyields

/-- The code of a whole program, from what the evaluator does with its
statements. -/
theorem yields_program {ceiling : Option Nat} {limit depth : Nat}
    {scope : ScopeId} {source : Program} {store : Store}
    (hfits : Fits ceiling [.program scope source] ⟨store, depth⟩)
    (h : Code.Yields (Routine.body ceiling) (Fits ceiling)
      [.block scope source, .program scope source]
      (Routine.ofStatements scope none source).run
      ⟨store, 0⟩ ((block (evaluator limit) scope source).result store)
      ⟨(block (evaluator limit) scope source).after store, 0⟩) :
    Code.Yields (Routine.body ceiling) (Fits ceiling) [.program scope source]
      (Routine.body ceiling (.program scope source)) ⟨store, depth⟩
      (program limit scope source store).1
        ⟨(program limit scope source store).2, 0⟩ := by
  have hzero : ∀ store, Fits ceiling [.program scope source] ⟨store, 0⟩ :=
    fun store => fits_zero store rfl
  refine .act hfits (.call (hzero store) h ?_)
  rw [program, EvalM.result, EvalM.after]
  cases block (evaluator limit) scope source store with
  | ok outcome after => exact .done (hzero after)
  | error fault after => exact .done (hzero after)

theorem yields_answer {limit : Nat} {memory : Memory} {routine : Routine}
    (hfits : Fits (some limit) [routine] memory) :
    Code.Yields (Routine.body (some limit)) (Fits (some limit)) [routine]
      (Routine.body (some limit) routine) memory (routine.answer limit memory).1
      (routine.answer limit memory).2 := by
  obtain ⟨store, depth⟩ := memory
  have hdepth : depth ≤ limit := hfits.depth_le limit rfl
  have hlimit : ∀ bound ∈ some limit, bound = limit := by
    rintro _ ⟨⟩
    rfl
  have hlevels : depth + (limit - depth) = limit := by omega
  have hsimulates :
      Simulates (some limit) limit depth (Expr.eval limit (limit - depth)) :=
    simulates_eval hlimit hlevels
  cases routine with
  | program scope source =>
      have hblock : Simulates (some limit) limit 0 (evaluator limit) :=
        simulates_eval hlimit (Nat.zero_add limit)
      refine yields_program hfits
        ((follows_ofStatements hblock scope none source).yields ?_)
      exact fits_zero store rfl
  | block scope body =>
      exact (follows_ofStatements hsimulates scope none body).yields hfits
  | statement scope s =>
      exact (follows_ofStatement hsimulates scope s).yields hfits
  | inner scope e => exact (follows_ofExpr hsimulates scope e).yields hfits
  | apply callee arguments =>
      exact (follows_ofApply hsimulates callee arguments).yields hfits
  | expression scope e =>
      exact (follows_ofCounted hlimit hlevels scope e).yields hfits

/-- Within a limit, a routine does what it does without one. -/
theorem yields_body_of_lt {limit : Nat} {active : List Routine}
    {routine : Routine} {memory memory' : Memory} {answer : routine.Answer}
    (hdepth : memory.depth < limit)
    (h : Code.Yields (Routine.body (some limit)) (fun _ _ => True) active
      (Routine.body none routine) memory answer memory') :
    Code.Yields (Routine.body (some limit)) (fun _ _ => True) active
      (Routine.body (some limit) routine) memory answer memory' := by
  cases routine with
  | expression scope e =>
      have hrefusal : Routine.refusal (some limit) memory.depth = none := by
        rw [Routine.refusal, if_neg (Nat.not_le_of_lt hdepth)]
      rw [Routine.body, Routine.ofCounted] at h ⊢
      cases h with
      | act hok h =>
          refine .act hok ?_
          simp only [hrefusal]
          exact h
  | _ => exact h

/-- What is run to an end without a limit is run in the same way under every
limit that is high enough. -/
theorem exists_limit_of_yields {α : Type} {active : List Routine}
    {code : Code Routine.Answer Memory α} {memory memory' : Memory} {a : α}
    (h : Code.Yields (Routine.body none) (fun _ _ => True) active code
      memory a memory') :
    ∃ least, ∀ limit ≥ least,
      Code.Yields (Routine.body (some limit)) (fun _ _ => True) active
      code memory a memory' := by
  induction h with
  | done hok => exact ⟨0, fun _ _ => .done hok⟩
  | act hok _ ih =>
      obtain ⟨least, hleast⟩ := ih
      exact ⟨least, fun limit hlimit => .act hok (hleast limit hlimit)⟩
  | @call _ _ routine next answer memory _ _ _ hok _ _ ihbody ih =>
      obtain ⟨inside, hinside⟩ := ihbody
      obtain ⟨rest, hrest⟩ := ih
      refine ⟨inside + rest + memory.depth + 1, fun limit hlimit => ?_⟩
      have hbody := yields_body_of_lt (by omega) (hinside limit (by omega))
      exact .call hok hbody (hrest limit (by omega))

/-- A program that does not overflow comes to an end by itself. -/
theorem halts_of_not_overflow {limit : Nat} {scope : ScopeId} {source : Program}
    {store : Store}
    (h : (program limit scope source store).1 ≠ .fault (.stackOverflow limit)) :
    (machine none).Halts (.program scope source) ⟨store, 0⟩ := by
  have hnone : ∀ bound ∈ (none : Option Nat), bound = limit := by
    rintro _ ⟨⟩
  have hsimulates : Simulates none limit 0 (evaluator limit) :=
    simulates_eval hnone (Nat.zero_add limit)
  rcases follows_ofStatements hsimulates scope none source
      [.block scope source, .program scope source] store
      (fits_zero store rfl) with
    ⟨-, hover⟩ | hyields
  · refine absurd ?_ h
    have hover : (block (evaluator limit) scope source).result store =
        .error (.stackOverflow limit) := hover
    rw [EvalM.result] at hover
    rw [program]
    split at hover
    · cases hover
    · cases hover
      simp only [*]
  · exact Machine.halts_of_yields (M := machine none)
      (yields_program (fits_zero store rfl) hyields)

/-- Under a limit, every routine comes to an end, with the answer of the
evaluator and the count that it started with (a program: zero); whatever happens
on the way, no more expressions are being run than were counted, and no more
were counted than the limit.  Without a limit, a program goes on forever exactly
if it overflows under every limit. -/
theorem terminates :
    (∀ (limit : Nat) (routine : Routine) (memory : Memory),
      Fits (some limit) [routine] memory →
      ∀ state,
        (machine (some limit)).Reaches
        ((machine (some limit)).initial routine memory) state →
        evaluations state.active ≤ state.memory.depth ∧
        state.memory.depth ≤ limit ∧
          (machine (some limit)).Reaches state
          ((machine (some limit)).final routine
            (routine.answer limit memory).1 (routine.answer limit memory).2)) ∧
      ∀ (scope : ScopeId) (source : Program) (store : Store),
        ¬ (machine none).Halts (.program scope source) ⟨store, 0⟩ ↔
          ∀ limit, (program limit scope source store).1 =
            .fault (.stackOverflow limit) := by
  constructor
  · intro limit routine memory hfits state hstate
    have hyields := yields_answer hfits
    obtain ⟨hstate, hend⟩ :=
      Machine.run_of_yields (M := machine (some limit)) hyields hstate
    exact ⟨hstate.evaluations_le, hstate.depth_le limit rfl, hend⟩
  · intro scope source store
    constructor
    · intro hendless limit
      by_cases hover : (program limit scope source store).1 =
          .fault (.stackOverflow limit)
      · exact hover
      · exact absurd (halts_of_not_overflow hover) hendless
    · intro hover hhalts
      obtain ⟨answer, memory', hyields⟩ := Machine.exists_yields_of_halts hhalts
      obtain ⟨least, hleast⟩ := exists_limit_of_yields hyields
      -- The answer is the same under two limits, but the overflows are not.
      have hsame : ∀ limit ≥ least, answer = .fault (.stackOverflow limit) := by
        intro limit hlimit
        have hfits : Fits (some limit) [.program scope source] ⟨store, 0⟩ :=
          fits_zero store rfl
        rw [← hover limit]
        exact Machine.answer_unique (M := machine (some limit))
          (hleast limit hlimit) (yields_answer hfits)
      have hone := hsame least (Nat.le_refl least)
      have htwo := hsame (least + 1) (Nat.le_succ least)
      rw [hone] at htwo
      injection htwo with hfault
      injection hfault with hlimit
      omega

def selfCall : Expr := .call (.identifier "f") []

def endless : Program :=
  [.binding "f" (.function [] [.expression selfCall]), .expression selfCall]

/-- Where `f` only calls itself, a call of it overflows. -/
theorem eval_selfCall {limit levels : Nat} {store : Store} {scope : ScopeId}
    {closure : Closure} (hparameters : closure.parameters = [])
    (hbody : closure.body = [.expression selfCall]) (hscope : closure.scope = 0)
    (hzero : store.lookup 0 "f" = some (.function closure))
    (hf : store.lookup scope "f" = some (.function closure)) :
    ∃ after, Expr.eval limit levels scope selfCall store =
      .error (.stackOverflow limit) after := by
  induction levels generalizing store scope with
  | zero => exact ⟨store, rfl⟩
  | succ levels ih =>
      cases levels with
      | zero => exact ⟨store, rfl⟩
      | succ levels =>
          have hcallee :
              Expr.eval limit (levels + 1) scope (.identifier "f") store =
                .ok (.function closure) store := by
            change identifier scope "f" store = _
            have hget : (get : EvalM Store) store = .ok store store := rfl
            rw [identifier, EvalM.bind_of_ok hget, hf]
            rfl
          let entered := (store.addScope (some closure.scope)).2
          have hsize : 0 < store.scopes.size := by
            cases hscopes : store.scopes[0]? with
            | none =>
                rw [Store.lookup, hscopes] at hzero
                cases hzero
            | some outermost => exact (Array.getElem?_eq_some_iff.1 hscopes).1
          have hzero' : entered.lookup 0 "f" = some (.function closure) :=
            (store.untouched_addScope _).lookup hzero
          have hfresh : entered.lookup store.scopes.size "f" =
              some (.function closure) := by
            have hnew : entered.scopes[store.scopes.size]? =
                some ⟨[], some 0⟩ := by
              rw [← hscope]
              exact Array.getElem?_push_size
            rw [Store.lookup, hnew]
            simp only [Table.find?, if_pos hsize]
            exact hzero'
          obtain ⟨after, hafter⟩ := ih hzero' hfresh
          have hblock :
              block (Expr.eval limit (levels + 1)) store.scopes.size
                closure.body entered = .error (.stackOverflow limit) after := by
            rw [hbody]
            refine EvalM.bind_of_error ?_
            rw [statement, map_eq_pure_bind]
            exact EvalM.bind_of_error hafter
          have hlength : ([] : List Value).length =
              closure.parameters.length := by
            rw [hparameters]
            rfl
          refine ⟨after, (EvalM.bind_of_ok hcallee).trans ?_⟩
          change callClosure (Expr.eval limit (levels + 1)) closure [] store = _
          rw [callClosure_eq_callIn _ hlength]
          change callIn (Expr.eval limit (levels + 1)) store.scopes.size
            closure [] entered = _
          rw [callIn, hparameters]
          exact (EvalM.bind_of_ok rfl).trans (EvalM.bind_of_error hblock)

theorem program_endless (limit : Nat) :
    (program limit 0 endless (Store.empty.addScope none).2).1 =
      .fault (.stackOverflow limit) := by
  cases limit with
  | zero => rfl
  | succ limit =>
      let closure : Closure := ⟨0, [], [.expression selfCall], 0⟩
      let store : Store := ⟨#[⟨[("f", .function closure)], none⟩], 1, ""⟩
      have hlookup : store.lookup 0 "f" = some (.function closure) := by
        rw [Store.lookup]
        rfl
      obtain ⟨after, hafter⟩ : ∃ after, evaluator (limit + 1) 0 selfCall store =
          .error (.stackOverflow (limit + 1)) after :=
            eval_selfCall rfl rfl rfl hlookup hlookup
      have hblock :
          block (evaluator (limit + 1)) 0 endless
            (Store.empty.addScope none).2 =
            .error (.stackOverflow (limit + 1)) after := by
        change statements (evaluator (limit + 1)) 0 none
          [.expression selfCall] store = _
        refine EvalM.bind_of_error ?_
        rw [statement, map_eq_pure_bind]
        exact EvalM.bind_of_error hafter
      rw [program, hblock]

/-- A program that goes on forever without a limit, under the limit 3. -/
theorem terminates_endless :
    let store := (Store.empty.addScope none).2
    Fits (some 3) [.program 0 endless] ⟨store, 0⟩ ∧
      (∃ memory', (machine (some 3)).Reaches
        ((machine (some 3)).initial (.program 0 endless) ⟨store, 0⟩)
        ((machine (some 3)).final (.program 0 endless)
          (.fault (.stackOverflow 3)) memory')) ∧
      ¬ (machine none).Halts (.program 0 endless) ⟨store, 0⟩ := by
  intro store
  have hfits : Fits (some 3) [.program 0 endless] ⟨store, 0⟩ :=
    fits_zero store rfl
  have hend :=
    (terminates.1 3 (.program 0 endless) ⟨store, 0⟩ hfits _ .refl).2.2
  have hvalue : (Routine.answer 3 ⟨store, 0⟩ (.program 0 endless)).1 =
      .fault (.stackOverflow 3) :=
    program_endless 3
  rw [hvalue] at hend
  exact ⟨hfits, ⟨_, hend⟩, (terminates.2 0 endless store).2 program_endless⟩

end Eval

end Scriptlet
