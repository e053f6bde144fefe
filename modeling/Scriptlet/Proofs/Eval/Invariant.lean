/-
Invariants of running programs.  What an invariant asks of a value depends on a
stage, and the stages go on as functions are made: what is good at a stage is
good at every later one.  A store is good if the values of all its bindings are.

Whatever is run in a good store leaves a good store behind, also where it fails,
and what it gives is good at the stage that has been reached.  This is shown for
every construct once, from the few laws that an invariant brings along.
-/
import Scriptlet.Eval.Basic

namespace Scriptlet

theorem Table.mem_of_find? {κ α : Type} [Ord κ] {key : κ} {a : α}
    {table : Table κ α} (h : Table.find? key table = some a) :
    ∃ entry ∈ table, entry.2 = a := by
  induction table with
  | nil => cases h
  | cons entry table ih =>
      rw [Table.find?] at h
      by_cases hkey : compare key entry.1 = .eq
      · rw [if_pos hkey] at h
        exact ⟨entry, List.mem_cons_self, Option.some.inj h⟩
      · rw [if_neg hkey] at h
        obtain ⟨found, hfound, hvalue⟩ := ih h
        exact ⟨found, List.mem_cons_of_mem entry hfound, hvalue⟩

namespace Store

variable {store : Store}

/-- The value of a name is bound in some scope. -/
theorem exists_binding_of_lookup {id : ScopeId} {name : String} {value : Value}
    (h : store.lookup id name = some value) :
    ∃ (other : ScopeId) (scope : Scope) (binding : String × Value),
      store.scopes[other]? = some scope ∧ binding ∈ scope.bindings ∧
        binding.2 = value := by
  fun_induction store.lookup id name with
  | case1 id hscope => cases h
  | case2 id scope hscope found hfound =>
      obtain ⟨binding, hbinding, rfl⟩ := Table.mem_of_find? hfound
      cases h
      exact ⟨id, scope, binding, hscope, hbinding, rfl⟩
  | case3 id scope hscope hnone parent hparent holder ih => exact ih h
  | case4 id scope hscope hnone parent hparent holder => cases h
  | case5 id scope hscope hnone hparent => cases h

/-- A scope after a definition has at most one new binding. -/
theorem exists_scope_of_define {id id' : ScopeId} {name : String}
    {value : Value} {scope : Scope}
    (h : (store.define id name value).scopes[id']? = some scope) :
    ∃ before, store.scopes[id']? = some before ∧ scope.parent = before.parent ∧
      ∀ binding ∈ scope.bindings,
        binding = (name, value) ∨ binding ∈ before.bindings := by
  rw [Store.define, Array.getElem?_modify] at h
  by_cases hid : id = id'
  · rw [if_pos hid] at h
    obtain ⟨before, hbefore, rfl⟩ := Option.map_eq_some_iff.1 h
    exact ⟨before, hbefore, rfl, fun binding => Table.mem_insert⟩
  · rw [if_neg hid] at h
    exact ⟨scope, h, rfl, fun binding => Or.inr⟩

/-- A scope after one was added is that one or was there before. -/
theorem scope_of_addScope {id : ScopeId} {parent : Option ScopeId}
    {scope : Scope} (h : (store.addScope parent).2.scopes[id]? = some scope) :
    id = store.scopes.size ∧ scope = ⟨[], parent⟩ ∨
      store.scopes[id]? = some scope := by
  rw [Store.addScope, Array.getElem?_push] at h
  by_cases hid : id = store.scopes.size
  · rw [if_pos hid] at h
    exact Or.inl ⟨hid, (Option.some.inj h).symm⟩
  · rw [if_neg hid] at h
    exact Or.inr h

end Store

/-- Whether the value is one that no value is in and no program made. -/
def Value.isPlain : Value → Bool
  | .null | .integer _ | .boolean _ | .string _ | .builtin _ => true
  | _ => false

section Plain

variable {value : Value}

theorem isPlain_of_inRange {operation : Overflow} {result : Int}
    (h : inRange operation result = .ok value) : value.isPlain := by
  rw [inRange] at h
  split at h
  · cases h
    rfl
  · cases h

theorem UnaryOp.isPlain_of_apply {op : UnaryOp} {operand : Value}
    (h : op.apply operand = .ok value) : value.isPlain := by
  unfold UnaryOp.apply at h
  split at h
  · cases h
    rfl
  · exact isPlain_of_inRange h
  · cases h

theorem BinaryOp.isPlain_of_onIntegers {op : BinaryOp} {left right : Int64}
    (h : op.onIntegers left right = .ok value) : value.isPlain := by
  cases op with
  | add => exact isPlain_of_inRange h
  | sub => exact isPlain_of_inRange h
  | mul => exact isPlain_of_inRange h
  | div =>
      simp only [BinaryOp.onIntegers] at h
      split at h
      · cases h
      · exact isPlain_of_inRange h
  | mod =>
      simp only [BinaryOp.onIntegers] at h
      split at h
      · cases h
      · cases hquotient : inRange (.operation left .mod right)
          (left.toInt.tdiv right.toInt) with
        | error fault =>
            rw [hquotient] at h
            cases h
        | ok quotient =>
            rw [hquotient] at h
            exact isPlain_of_inRange h
  | less | greater | equal | notEqual =>
      cases h
      rfl

theorem BinaryOp.isPlain_of_apply {op : BinaryOp} {left right : Value}
    (h : op.apply left right = .ok value) : value.isPlain := by
  unfold BinaryOp.apply at h
  split at h
  · exact isPlain_of_onIntegers h
  · cases op <;> cases h <;> rfl
  · split at h
    · cases h
    · cases op <;> cases h <;> rfl

theorem Builtin.isPlain_of_lenOf {argument : Value}
    (h : lenOf argument = .ok value) : value.isPlain := by
  have hlength {length : Nat}
      (h : Value.integer <$> ofLength length = .ok value) : value.isPlain := by
    cases hresult : ofLength length with
    | error fault =>
        rw [hresult] at h
        cases h
    | ok n =>
        rw [hresult] at h
        cases h
        rfl
  unfold lenOf at h
  split at h
  · exact hlength h
  · exact hlength h
  · cases h

end Plain

theorem Builtin.elements_bind {function : Builtin} {argument value : Value}
    {f : List Value → Value}
    (h : (do return f (← elements function argument) : Except Fault Value) =
      .ok value) :
    ∃ values, argument = .array values ∧ f values = value := by
  cases argument with
  | array values =>
      cases h
      exact ⟨values, rfl, rfl⟩
  | _ => cases h

/-- What is asked of values, from stage to stage. -/
structure Invariant where
  Stage : Type
  later : Stage → Stage → Prop
  value : Stage → Value → Prop
  /-- What is asked of the number of functions made so far. -/
  count : Stage → Nat → Prop
  later_refl (stage : Stage) : later stage stage
  later_trans {first second third : Stage} :
    later first second → later second third → later first third
  value_later {stage next : Stage} {v : Value} :
    later stage next → value stage v → value next v
  value_plain (stage : Stage) {v : Value} : v.isPlain → value stage v
  value_array {stage : Stage} {elements : List Value} :
    value stage (.array elements) ↔ ∀ element ∈ elements, value stage element
  value_hash {stage : Stage} {entries : Table HashKey Value} :
    value stage (.hash entries) ↔ ∀ entry ∈ entries, value stage entry.2
  value_returning {stage : Stage} {v : Value} :
    value stage (.returning v) → value stage v
  /-- A function is good once it has been made. -/
  value_function {stage : Stage} {n : Nat} (parameters : List String)
      (body : Block) (scope : ScopeId) : count stage n →
    ∃ next, later stage next ∧ count next (n + 1) ∧
      value next (.function ⟨n, parameters, body, scope⟩)

namespace Invariant

variable {I : Invariant} {stage next : I.Stage} {store : Store} {v : Value}
  {α β : Type} {good : I.Stage → α → Prop} {better : I.Stage → β → Prop}

/-- Every value that is bound in a scope is good. -/
structure Holds (I : Invariant) (stage : I.Stage) (store : Store) : Prop where
  count : I.count stage store.functions
  bindings ⦃id : ScopeId⦄ ⦃scope : Scope⦄ ⦃binding : String × Value⦄
    (hscope : store.scopes[id]? = some scope)
    (hbinding : binding ∈ scope.bindings) : I.value stage binding.2

namespace Holds

theorem of_eq {other : Store} (h : I.Holds stage store)
    (hscopes : other.scopes = store.scopes)
    (hfunctions : other.functions = store.functions) : I.Holds stage other where
  count := hfunctions ▸ h.count
  bindings _ _ _ hscope hbinding := h.bindings (hscopes ▸ hscope) hbinding

theorem lookup (h : I.Holds stage store) {id : ScopeId} {name : String}
    (hvalue : store.lookup id name = some v) : I.value stage v := by
  obtain ⟨other, scope, binding, hscope, hbinding, rfl⟩ :=
    Store.exists_binding_of_lookup hvalue
  exact h.bindings hscope hbinding

theorem define (h : I.Holds stage store) (id : ScopeId) (name : String)
    (hvalue : I.value stage v) : I.Holds stage (store.define id name v) where
  count := h.count
  bindings := by
    intro other scope binding hscope hbinding
    obtain ⟨before, hbefore, -, hbindings⟩ :=
      Store.exists_scope_of_define hscope
    rcases hbindings binding hbinding with rfl | hold
    · exact hvalue
    · exact h.bindings hbefore hold

theorem addScope (h : I.Holds stage store) (parent : Option ScopeId) :
    I.Holds stage (store.addScope parent).2 where
  count := h.count
  bindings := by
    intro id scope binding hscope hbinding
    rcases Store.scope_of_addScope hscope with ⟨-, rfl⟩ | hold
    · cases hbinding
    · exact h.bindings hold hbinding

theorem makeFunction (h : I.Holds stage store) (parameters : List String)
    (body : Block) (scope : ScopeId) :
    ∃ next, I.later stage next ∧
      I.Holds next (store.makeFunction parameters body scope).2 ∧
      I.value next (store.makeFunction parameters body scope).1 := by
  obtain ⟨next, hlater, hcount, hvalue⟩ :=
    I.value_function parameters body scope h.count
  refine ⟨next, hlater, ⟨hcount, fun _ _ _ hscope hbinding => ?_⟩, hvalue⟩
  exact I.value_later hlater (h.bindings hscope hbinding)

end Holds

/-- A good value, or one on its way out. -/
inductive Result (I : Invariant) (stage : I.Stage) : Value → Prop
  | value {v : Value} (hvalue : I.value stage v) : Result I stage v
  | returning {v : Value} (hvalue : I.value stage v) :
      Result I stage (.returning v)

/-- The outcome of a statement, if it has one, is good or on its way out. -/
def Outcome (I : Invariant) (stage : I.Stage) (outcome : Option Value) : Prop :=
  ∀ value ∈ outcome, I.Result stage value

theorem outcome_none : I.Outcome stage none := by
  intro value hvalue
  cases hvalue

theorem outcome_some (h : I.Result stage v) : I.Outcome stage (some v) := by
  intro value hvalue
  cases hvalue
  exact h

theorem Outcome.getD {outcome : Option Value} (h : I.Outcome stage outcome) :
    I.Result stage (outcome.getD .null) := by
  cases outcome with
  | none => exact .value (I.value_plain stage rfl)
  | some v => exact h v rfl

theorem Outcome.value {outcome : Option Value} (h : I.Outcome stage outcome) :
    I.value stage (.ofOutcome outcome) := by
  cases outcome with
  | none => exact I.value_plain stage rfl
  | some v =>
      cases h v rfl with
      | returning hvalue => exact hvalue
      | value hvalue =>
          cases v with
          | returning v => exact I.value_returning hvalue
          | _ => exact hvalue

/-- A run that began at a stage has come to an end: the store it leaves is good
at a later stage, and so is what it gives. -/
inductive Ends (I : Invariant) (stage : I.Stage) (good : I.Stage → α → Prop) :
    EStateM.Result Fault Store α → Prop
  | ok {a : α} {after : Store} {next : I.Stage} (hlater : I.later stage next)
      (hstore : I.Holds next after) (h : good next a) :
      Ends I stage good (.ok a after)
  | error (fault : Fault) {after : Store} {next : I.Stage}
      (hlater : I.later stage next) (hstore : I.Holds next after) :
      Ends I stage good (.error fault after)

namespace Ends

theorem pure {a : α} (hstore : I.Holds stage store) (h : good stage a) :
    I.Ends stage good ((pure a : EvalM α) store) :=
  .ok (I.later_refl stage) hstore h

theorem throw (hstore : I.Holds stage store) (fault : Fault) :
    I.Ends stage good ((throw fault : EvalM α) store) :=
  .error fault (I.later_refl stage) hstore

theorem modify {f : Store → Store} (hstore : I.Holds stage (f store)) :
    I.Ends stage (fun _ _ => True) ((modify f : EvalM PUnit) store) :=
  .ok (I.later_refl stage) hstore trivial

theorem mono {good' : I.Stage → α → Prop}
    {result : EStateM.Result Fault Store α} (h : I.Ends stage good result)
    (hgood : ∀ next a, good next a → good' next a) :
    I.Ends stage good' result := by
  cases h with
  | ok hlater hstore h => exact .ok hlater hstore (hgood _ _ h)
  | error fault hlater hstore => exact .error fault hlater hstore

/-- A good value is a good result. -/
theorem result {result : EStateM.Result Fault Store Value}
    (h : I.Ends stage I.value result) : I.Ends stage I.Result result :=
  h.mono fun _ _ => .value

theorem since {result : EStateM.Result Fault Store α}
    (h : I.Ends next good result) (hlater : I.later stage next) :
    I.Ends stage good result := by
  cases h with
  | ok hlater' hstore h => exact .ok (I.later_trans hlater hlater') hstore h
  | error fault hlater' hstore =>
      exact .error fault (I.later_trans hlater hlater') hstore

theorem bind {run : EvalM α} {rest : α → EvalM β}
    (h : I.Ends stage good (run store))
    (hrest : ∀ next after a, I.later stage next → I.Holds next after →
      good next a → I.Ends next better (rest a after)) :
    I.Ends stage better ((run >>= rest) store) := by
  change I.Ends stage better (EStateM.bind run rest store)
  rw [EStateM.bind]
  generalize run store = result at h ⊢
  cases h with
  | error fault hlater hstore => exact .error fault hlater hstore
  | ok hlater hstore ha => exact (hrest _ _ _ hlater hstore ha).since hlater

theorem map {run : EvalM α} {f : α → β} (h : I.Ends stage good (run store))
    (hf : ∀ next a, good next a → better next (f a)) :
    I.Ends stage better ((f <$> run) store) := by
  rw [map_eq_pure_bind]
  refine h.bind fun next after a _ hstore ha => ?_
  exact .pure hstore (hf next a ha)

theorem forM {items : List α} {f : α → EvalM PUnit}
    (hstore : I.Holds stage store)
    (hf : ∀ item ∈ items, ∀ next after, I.later stage next →
      I.Holds next after →
      I.Ends next (fun _ _ => True) (f item after)) :
    I.Ends stage (fun _ _ => True) (items.forM f store) := by
  induction items generalizing stage store with
  | nil => exact .pure hstore trivial
  | cons item items ih =>
      refine (hf item List.mem_cons_self stage store (I.later_refl stage)
        hstore).bind ?_
      intro next after _ hlater hstore _
      refine ih hstore fun other hother last final hlater' => ?_
      exact hf other (List.mem_cons_of_mem item hother) last final
        (I.later_trans hlater hlater')

theorem ofExcept {result : Except Fault α} (hstore : I.Holds stage store)
    (h : ∀ a, result = .ok a → good stage a) :
    I.Ends stage good (EvalM.ofExcept result store) := by
  cases result with
  | ok a => exact .pure hstore (h a rfl)
  | error fault => exact .throw hstore fault

theorem proceed {run : EvalM Value} {rest : Value → EvalM Value}
    (h : I.Ends stage I.Result (run store))
    (hrest : ∀ next after value, I.later stage next → I.Holds next after →
      I.value next value → I.Ends next I.Result (rest value after)) :
    I.Ends stage I.Result (run.proceed rest store) := by
  refine h.bind fun next after value hlater hstore hresult => ?_
  cases hresult with
  | returning hvalue => exact .pure hstore (.returning hvalue)
  | value hvalue =>
      have hgoes := hrest next after value hlater hstore hvalue
      cases value with
      | returning value => exact .pure hstore (.value hvalue)
      | _ => exact hgoes

end Ends

section Parts

variable {argument : Value} {arguments : List Value}

/-- What is found is good, and so is the `null` where nothing is. -/
theorem value_getD {found : Option Value} (h : ∀ v ∈ found, I.value stage v) :
    I.value stage (found.getD .null) := by
  cases found with
  | none => exact I.value_plain stage rfl
  | some v => exact h v rfl

theorem value_of_index {collection position : Value}
    (hcollection : I.value stage collection)
    (h : collection.index position = .ok v) : I.value stage v := by
  cases collection with
  | array elements =>
      cases position with
      | integer i =>
          cases h
          refine value_getD fun element helement => ?_
          obtain ⟨n, -, hget⟩ := Option.bind_eq_some_iff.1 helement
          exact I.value_array.1 hcollection element (List.mem_of_getElem? hget)
      | _ => cases h
  | hash entries =>
      rw [Value.index] at h
      cases hkey : position.toKey with
      | error fault =>
          rw [hkey] at h
          cases h
      | ok key =>
          rw [hkey] at h
          cases h
          refine value_getD fun found hfound => ?_
          obtain ⟨entry, hentry, rfl⟩ := Table.mem_of_find? hfound
          exact I.value_hash.1 hcollection entry hentry
  | _ => cases h

theorem value_of_restOf (hargument : I.value stage argument)
    (h : Builtin.restOf argument = .ok v) : I.value stage v := by
  cases argument with
  | array elements =>
      cases elements with
      | nil =>
          cases h
          exact I.value_plain stage rfl
      | cons first others =>
          cases h
          refine I.value_array.2 fun other hother => ?_
          exact I.value_array.1 hargument other
            (List.mem_cons_of_mem first hother)
  | _ => cases h

/-- A built-in function gives what its arguments hold, or something plain. -/
theorem ends_call (hstore : I.Holds stage store) (function : Builtin)
    (harguments : ∀ argument ∈ arguments, I.value stage argument) :
    I.Ends stage I.value (function.call arguments store) := by
  unfold Builtin.call
  split
  · exact .ofExcept hstore fun v hv =>
      I.value_plain stage (Builtin.isPlain_of_lenOf hv)
  · next argument added others =>
      refine .ofExcept hstore fun v hv => ?_
      obtain ⟨elements, rfl, rfl⟩ := Builtin.elements_bind hv
      obtain ⟨hargument, hadded⟩ := List.forall_mem_cons.1 harguments
      exact I.value_array.2
        (List.forall_mem_append.2 ⟨I.value_array.1 hargument, hadded⟩)
  · refine .ofExcept hstore fun v hv => ?_
    obtain ⟨elements, rfl, rfl⟩ := Builtin.elements_bind hv
    have hargument := I.value_array.1 (harguments _ List.mem_cons_self)
    exact value_getD fun element hhead =>
      hargument element (List.mem_of_head? hhead)
  · refine .ofExcept hstore fun v hv => ?_
    obtain ⟨elements, rfl, rfl⟩ := Builtin.elements_bind hv
    have hargument := I.value_array.1 (harguments _ List.mem_cons_self)
    exact value_getD fun element hlast =>
      hargument element (List.mem_of_getLast? hlast)
  · exact .ofExcept hstore fun v hv =>
      value_of_restOf (harguments _ List.mem_cons_self) hv
  · refine Ends.bind (Ends.forM hstore ?_) ?_
    · intro argument _ next after _ hstore
      exact .modify (hstore.of_eq rfl rfl)
    · intro next after _ _ hstore _
      exact .pure hstore (I.value_plain next rfl)
  · exact .throw hstore _

theorem ends_identifier (hstore : I.Holds stage store) (scope : ScopeId)
    (name : String) :
    I.Ends stage I.value (Eval.identifier scope name store) := by
  have hget : I.Ends stage I.Holds ((get : EvalM Store) store) :=
    .ok (I.later_refl stage) hstore hstore
  refine hget.bind fun next after found _ hstore hfound => ?_
  cases hlookup : found.lookup scope name with
  | some value => exact .pure hstore (hfound.lookup hlookup)
  | none =>
      cases Builtin.ofName? name with
      | some builtin => exact .pure hstore (I.value_plain next rfl)
      | none => exact .throw hstore _

theorem ends_makeFunction (hstore : I.Holds stage store)
    (parameters : List String) (body : Block) (scope : ScopeId) :
    I.Ends stage I.value ((modifyGet (·.makeFunction parameters body scope) :
      EvalM Value) store) := by
  obtain ⟨next, hlater, hstore, hvalue⟩ :=
    hstore.makeFunction parameters body scope
  exact .ok hlater hstore hvalue

theorem ends_enterCall (hstore : I.Holds stage store) (parent : ScopeId)
    (parameters : List String)
    (harguments : ∀ argument ∈ arguments, I.value stage argument) :
    I.Ends stage (fun _ _ => True)
      (Eval.enterCall parent parameters arguments store) := by
  have hscope : I.Ends stage (fun _ _ => True)
      ((modifyGet (·.addScope (some parent)) : EvalM ScopeId) store) :=
    .ok (I.later_refl stage) (hstore.addScope (some parent)) trivial
  refine hscope.bind fun next after scope hlater hstore _ => ?_
  refine Ends.bind (Ends.forM hstore ?_) fun last after _ _ hstore _ =>
    .pure hstore trivial
  intro binding hbinding last after hlater' hstore
  have hvalue := harguments binding.2 (List.of_mem_zip hbinding).2
  exact .modify (hstore.define scope binding.1
    (I.value_later (I.later_trans hlater hlater') hvalue))

end Parts

/-- An evaluator that keeps to the invariant with every expression. -/
def Keeps (I : Invariant) (eval : Evaluator) : Prop :=
  ∀ ⦃stage : I.Stage⦄ ⦃store : Store⦄ (scope : ScopeId) (e : Expr),
    I.Holds stage store → I.Ends stage I.Result (eval scope e store)

namespace Keeps

variable {eval : Evaluator}

mutual

theorem statement (heval : I.Keeps eval) {stage : I.Stage} {store : Store}
    (hstore : I.Holds stage store) (scope : ScopeId) (s : Statement) :
    I.Ends stage I.Outcome (Eval.statement eval scope s store) := by
  match s with
  | .binding name value =>
      rw [Eval.statement]
      refine (heval scope value hstore).bind ?_
      intro next after v _ hstore hresult
      cases hresult with
      | returning hvalue =>
          exact .pure hstore (outcome_some (.returning hvalue))
      | value hvalue =>
          have hdefine : I.Ends next I.Outcome
              ((do modify (·.define scope name v); return none :
                EvalM (Option Value)) after) := by
            refine (Ends.modify (hstore.define scope name hvalue)).bind ?_
            intro last after _ _ hstore _
            exact .pure hstore outcome_none
          cases v with
          | returning v => exact .pure hstore (outcome_some (.value hvalue))
          | _ => exact hdefine
  | .returning value =>
      rw [Eval.statement]
      refine Ends.map (Ends.proceed (heval scope value hstore) ?_) fun _ _ =>
        outcome_some
      intro next after v _ hstore hvalue
      exact .pure hstore (.returning hvalue)
  | .expression value =>
      rw [Eval.statement]
      exact (heval scope value hstore).map fun _ _ => outcome_some
  | .block body =>
      rw [Eval.statement]
      exact heval.statements hstore scope outcome_none body

theorem statements (heval : I.Keeps eval) {stage : I.Stage} {store : Store}
    (hstore : I.Holds stage store) (scope : ScopeId) {last : Option Value}
    (hlast : I.Outcome stage last) (body : List Statement) :
    I.Ends stage I.Outcome (Eval.statements eval scope last body store) := by
  match body with
  | [] =>
      rw [Eval.statements]
      exact .pure hstore hlast
  | s :: body =>
      rw [Eval.statements]
      refine (heval.statement hstore scope s).bind ?_
      intro next after outcome _ hstore houtcome
      have hrest := heval.statements hstore scope houtcome body
      cases outcome with
      | none => exact hrest
      | some v =>
          cases v with
          | returning v => exact .pure hstore houtcome
          | _ => exact hrest

end

theorem block (heval : I.Keeps eval) (hstore : I.Holds stage store)
    (scope : ScopeId) (body : Block) :
    I.Ends stage I.Outcome (Eval.block eval scope body store) :=
  heval.statements hstore scope outcome_none body

/-- The value that a function or a program ends with is not on its way out. -/
theorem body (heval : I.Keeps eval) (hstore : I.Holds stage store)
    (scope : ScopeId) (body : Block) :
    I.Ends stage I.value
      ((do return .ofOutcome (← Eval.block eval scope body) : EvalM Value)
        store) := by
  refine (heval.block hstore scope body).bind ?_
  intro next after outcome _ hstore houtcome
  exact .pure hstore houtcome.value

theorem values (heval : I.Keeps eval) (hstore : I.Holds stage store)
    (scope : ScopeId) (es : List Expr) {rest : List Value → EvalM Value}
    (hrest : ∀ next after vs, I.later stage next → I.Holds next after →
      (∀ v ∈ vs, I.value next v) → I.Ends next I.Result (rest vs after)) :
    I.Ends stage I.Result (Eval.values eval scope es rest store) := by
  induction es generalizing stage store rest with
  | nil =>
      exact hrest stage store [] (I.later_refl stage) hstore
        (List.forall_mem_nil _)
  | cons e es ih =>
      refine (heval scope e hstore).proceed ?_
      intro next after v hlater hstore hvalue
      refine ih hstore fun last after vs hlater' hstore hvalues => ?_
      refine hrest last after (v :: vs) (I.later_trans hlater hlater') hstore ?_
      exact List.forall_mem_cons.2 ⟨I.value_later hlater' hvalue, hvalues⟩

theorem entries (heval : I.Keeps eval) (hstore : I.Holds stage store)
    (scope : ScopeId) (pairs : List (Expr × Expr)) {table : Table HashKey Value}
    (htable : I.value stage (.hash table)) :
    I.Ends stage I.Result (Eval.entries eval scope table pairs store) := by
  induction pairs generalizing stage store table with
  | nil => exact .pure hstore (.value htable)
  | cons pair pairs ih =>
      refine (heval scope pair.1 hstore).proceed ?_
      intro next after v hlater hstore _
      have hkey :
          I.Ends next (fun _ _ => True) (EvalM.ofExcept v.toKey after) :=
        .ofExcept hstore fun _ _ => trivial
      refine hkey.bind fun next after key hlater' hstore _ => ?_
      refine (heval scope pair.2 hstore).proceed ?_
      intro last after w hlater'' hstore hvalue
      have htable : I.value last (.hash table) :=
        I.value_later (I.later_trans (I.later_trans hlater hlater') hlater'')
          htable
      refine ih hstore (I.value_hash.2 fun entry hentry => ?_)
      rcases Table.mem_insert hentry with rfl | hold
      · exact hvalue
      · exact I.value_hash.1 htable entry hold

theorem apply (heval : I.Keeps eval) (hstore : I.Holds stage store)
    (callee : Value) {arguments : List Value}
    (harguments : ∀ argument ∈ arguments, I.value stage argument) :
    I.Ends stage I.value (Eval.apply eval callee arguments store) := by
  cases callee with
  | function closure =>
      rw [Eval.apply, Eval.callClosure]
      split
      · exact .throw hstore _
      · refine (ends_enterCall hstore closure.scope closure.parameters
          harguments).bind ?_
        intro next after scope _ hstore _
        exact heval.body hstore scope closure.body
  | builtin builtin => exact ends_call hstore builtin harguments
  | _ => exact .throw hstore _

theorem branch (heval : I.Keeps eval) (hstore : I.Holds stage store)
    (scope : ScopeId) (condition : Value) (consequence : Block)
    (alternative : Option Block) :
    I.Ends stage I.Result
      (Eval.branch eval scope condition consequence alternative store) := by
  rw [Eval.branch]
  cases if condition.isTruthy then some consequence else alternative with
  | none => exact .pure hstore (.value (I.value_plain stage rfl))
  | some body =>
      refine (heval.block hstore scope body).bind ?_
      intro next after outcome _ hstore houtcome
      exact .pure hstore houtcome.getD

/-- An expression keeps to the invariant if the expressions inside it do. -/
theorem step (heval : I.Keeps eval) : I.Keeps (Eval.step eval) := by
  intro stage store scope e hstore
  cases e with
  | identifier name => exact (ends_identifier hstore scope name).result
  | integer value => exact .pure hstore (.value (I.value_plain stage rfl))
  | boolean value => exact .pure hstore (.value (I.value_plain stage rfl))
  | string value => exact .pure hstore (.value (I.value_plain stage rfl))
  | array elements =>
      refine heval.values hstore scope elements ?_
      intro next after vs _ hstore hvalues
      exact .pure hstore (.value (I.value_array.2 hvalues))
  | hash pairs =>
      exact heval.entries hstore scope pairs
        (I.value_hash.2 (List.forall_mem_nil _))
  | unary op operand =>
      refine (heval scope operand hstore).proceed ?_
      intro next after v _ hstore _
      exact .ofExcept hstore fun w hw =>
        .value (I.value_plain next (UnaryOp.isPlain_of_apply hw))
  | binary op left right =>
      refine (heval scope left hstore).proceed fun next after v _ hstore _ => ?_
      refine (heval scope right hstore).proceed
        fun last after w _ hstore _ => ?_
      exact .ofExcept hstore fun u hu =>
        .value (I.value_plain last (BinaryOp.isPlain_of_apply hu))
  | conditional condition consequence alternative =>
      refine (heval scope condition hstore).proceed ?_
      intro next after v _ hstore _
      exact heval.branch hstore scope v consequence alternative
  | function parameters body =>
      exact (ends_makeFunction hstore parameters body scope).result
  | call callee arguments =>
      refine (heval scope callee hstore).proceed
        fun next after v _ hstore _ => ?_
      refine heval.values hstore scope arguments ?_
      intro last after vs _ hstore hvalues
      exact (heval.apply hstore v hvalues).result
  | index collection position =>
      refine (heval scope collection hstore).proceed ?_
      intro next after v _ hstore hcollection
      refine (heval scope position hstore).proceed ?_
      intro last after w hlater hstore _
      exact .ofExcept hstore fun u hu =>
        .value (value_of_index (I.value_later hlater hcollection) hu)

end Keeps

/-- Whatever levels are left, expressions keep to the invariant. -/
theorem keeps_eval (I : Invariant) (limit levels : Nat) :
    I.Keeps (Expr.eval limit levels) := by
  induction levels with
  | zero => exact fun _ _ _ _ hstore => .throw hstore _
  | succ levels ih => exact ih.step

end Invariant

end Scriptlet
