/-
The scopes of a session.  Functions hold scopes and scopes hold functions, in
any number of circles, but the scope around another one is always the older of
the two.  So the scopes seen from a place are a finite chain, which stays the
same whatever is run later, and the value of a name is found in the first of
them that binds it.
-/
import Mathlib.Logic.Relation
import Scriptlet.Session
import Scriptlet.Proofs.Eval.Correspondence
import Scriptlet.Proofs.Eval.Frame
import Scriptlet.Proofs.Eval.Invariant

namespace Scriptlet

namespace Value

/-- A function is, or is somewhere inside, a value. -/
inductive Holds : Value → Closure → Prop
  | function (closure : Closure) : Holds (.function closure) closure
  | array {elements : List Value} {element : Value} {closure : Closure}
      (hmem : element ∈ elements) (h : Holds element closure) :
      Holds (.array elements) closure
  | hash {entries : List (HashKey × Value)} {entry : HashKey × Value}
      {closure : Closure} (hmem : entry ∈ entries) (h : Holds entry.2 closure) :
      Holds (.hash entries) closure
  | returning {value : Value} {closure : Closure} (h : Holds value closure) :
      Holds (.returning value) closure

/-- Every function in the value belongs to a scope of the store. -/
def Allocated (store : Store) (value : Value) : Prop :=
  ∀ closure, value.Holds closure → closure.scope < store.scopes.size

theorem Allocated.mono {before after : Store} {value : Value}
    (h : value.Allocated before)
    (hsize : before.scopes.size ≤ after.scopes.size) : value.Allocated after :=
  fun closure hclosure => Nat.lt_of_lt_of_le (h closure hclosure) hsize

theorem mem_zip_self {α : Type} {xs : List α} {x y : α} :
    (x, y) ∈ xs.zip xs ↔ x = y ∧ x ∈ xs := by
  rw [List.zip_eq_zipWith, List.zipWith_self, List.mem_map]
  constructor
  · rintro ⟨z, hz, ⟨⟩⟩
    exact ⟨rfl, hz⟩
  · rintro ⟨rfl, hx⟩
    exact ⟨x, hx, rfl⟩

/-- A value is like itself if the functions in it are. -/
theorem alike_self {fn : Closure → Closure → Prop} (value : Value)
    (h : ∀ closure, value.Holds closure → fn closure closure) :
    value.Alike fn value := by
  match value with
  | .null => exact .null
  | .integer n => exact .integer n
  | .boolean b => exact .boolean b
  | .string s => exact .string s
  | .array elements =>
      refine .array rfl fun x y hmem => ?_
      obtain ⟨rfl, hx⟩ := mem_zip_self.1 hmem
      exact alike_self x fun closure hclosure => h closure (.array hx hclosure)
  | .hash entries =>
      refine .hash rfl (fun x y hmem => ?_) fun x y hmem => ?_
      · rw [(mem_zip_self.1 hmem).1]
      · obtain ⟨rfl, hx⟩ := mem_zip_self.1 hmem
        have hsize : sizeOf x.2 < sizeOf entries := by
          have := List.sizeOf_lt_of_mem hx
          have : sizeOf x = 1 + sizeOf x.1 + sizeOf x.2 := rfl
          omega
        exact alike_self x.2 fun closure hclosure =>
          h closure (.hash hx hclosure)
  | .function closure => exact .function (h closure (.function closure))
  | .builtin b => exact .builtin b
  | .returning value =>
      exact .returning (alike_self value fun closure hclosure =>
        h closure (.returning hclosure))
  | .fault f => exact .fault f

/-- Where functions are only related to themselves, values are as well. -/
theorem Alike.eq_and_holds {fn : Closure → Closure → Prop} {P : Closure → Prop}
    {v w : Value} (h : v.Alike fn w) (hfn : ∀ c d, fn c d → c = d ∧ P c) :
    v = w ∧ ∀ closure, v.Holds closure → P closure := by
  induction h with
  | @array xs ys hlength _ ih =>
      have heq : xs = ys := by
        rw [← List.forall₂_eq_eq_eq, List.forall₂_iff_zip]
        exact ⟨hlength, fun hmem => (ih _ _ hmem).1⟩
      subst heq
      refine ⟨rfl, fun closure hclosure => ?_⟩
      cases hclosure with
      | array hmem hclosure =>
          exact (ih _ _ (mem_zip_self.2 ⟨rfl, hmem⟩)).2 closure hclosure
  | @hash xs ys hlength hkeys _ ih =>
      have heq : xs = ys := by
        rw [← List.forall₂_eq_eq_eq, List.forall₂_iff_zip]
        exact ⟨hlength, fun hmem => Prod.ext (hkeys _ _ hmem) (ih _ _ hmem).1⟩
      subst heq
      refine ⟨rfl, fun closure hclosure => ?_⟩
      cases hclosure with
      | hash hmem hclosure =>
          exact (ih _ _ (mem_zip_self.2 ⟨rfl, hmem⟩)).2 closure hclosure
  | function h =>
      obtain ⟨rfl, hP⟩ := hfn _ _ h
      refine ⟨rfl, fun closure hclosure => ?_⟩
      cases hclosure
      exact hP
  | returning _ ih =>
      obtain ⟨rfl, hP⟩ := ih
      refine ⟨rfl, fun closure hclosure => ?_⟩
      cases hclosure with
      | returning hclosure => exact hP closure hclosure
  | _ => exact ⟨rfl, nofun⟩

/-- A value that is like itself holds functions that are. -/
theorem Alike.of_holds {fn : Closure → Closure → Prop} {value : Value}
    {closure : Closure} (h : value.Alike fn value)
    (hclosure : value.Holds closure) : fn closure closure := by
  induction hclosure with
  | function closure =>
      cases h with
      | function h => exact h
  | array hmem _ ih =>
      cases h with
      | array _ h => exact ih (h _ _ (mem_zip_self.2 ⟨rfl, hmem⟩))
  | hash hmem _ ih =>
      cases h with
      | hash _ _ h => exact ih (h _ _ (mem_zip_self.2 ⟨rfl, hmem⟩))
  | returning _ ih =>
      cases h with
      | returning h => exact ih h

end Value

namespace Correspondence

/-- A correspondence that also fits what is done with a store between runs. -/
structure Lasting (R : Correspondence) : Prop extends R.Lawful where
  addRoot {s s' : Store} (hstores : R.stores s s') :
    R.Ends s s' R.scopes ((modifyGet (·.addScope none) : EvalM ScopeId) s)
      ((modifyGet (·.addScope none) : EvalM ScopeId) s')
  takeOutput {s s' : Store} (hstores : R.stores s s') :
    R.stores s.takeOutput.2 s'.takeOutput.2 ∧
      R.Persists s s' s.takeOutput.2 s'.takeOutput.2

end Correspondence

namespace Store

theorem size_define (store : Store) (id : ScopeId) (name : String)
    (value : Value) :
    (store.define id name value).scopes.size = store.scopes.size :=
  Array.size_modify

theorem lt_size_addScope (store : Store) (parent : Option ScopeId) :
    store.scopes.size < (store.addScope parent).2.scopes.size := by
  rw [addScope, Array.size_push]
  exact Nat.lt_succ_self _

theorem size_le_addScope (store : Store) (parent : Option ScopeId) :
    store.scopes.size ≤ (store.addScope parent).2.scopes.size :=
  Nat.le_of_lt (store.lt_size_addScope parent)

/-- The scope around a scope is older, and functions belong to scopes that are
there. -/
structure WellFormed (store : Store) : Prop where
  parents {id parent : ScopeId} {scope : Scope}
    (hscope : store.scopes[id]? = some scope)
    (hparent : scope.parent = some parent) : parent < id
  bindings {id : ScopeId} {scope : Scope} {binding : String × Value}
    (hscope : store.scopes[id]? = some scope)
    (hbinding : binding ∈ scope.bindings) :
    binding.2.Allocated store

namespace WellFormed

variable {store : Store}

theorem empty : Store.empty.WellFormed where
  parents hscope := nomatch hscope
  bindings hscope := nomatch hscope

theorem of_scopes_eq {other : Store} (h : store.WellFormed)
    (heq : other.scopes = store.scopes) : other.WellFormed where
  parents hscope hparent := h.parents (heq ▸ hscope) hparent
  bindings hscope hbinding :=
    (h.bindings (heq ▸ hscope) hbinding).mono (Nat.le_of_eq (by rw [heq]))

theorem addScope (h : store.WellFormed) {parent : Option ScopeId}
    (hparent : ∀ id ∈ parent, id < store.scopes.size) :
    (store.addScope parent).2.WellFormed where
  parents := by
    intro id outer scope hscope houter
    rcases scope_of_addScope hscope with ⟨rfl, rfl⟩ | hold
    · exact hparent outer houter
    · exact h.parents hold houter
  bindings := by
    intro id scope binding hscope hbinding
    rcases scope_of_addScope hscope with ⟨-, rfl⟩ | hold
    · cases hbinding
    · exact (h.bindings hold hbinding).mono (size_le_addScope store parent)

theorem define (h : store.WellFormed) (id : ScopeId) (name : String)
    {value : Value} (hvalue : value.Allocated store) :
    (store.define id name value).WellFormed where
  parents := by
    intro other parent scope hscope hparent
    obtain ⟨before, hbefore, heq, -⟩ := exists_scope_of_define hscope
    exact h.parents hbefore (heq ▸ hparent)
  bindings := by
    intro other scope binding hscope hbinding
    obtain ⟨before, hbefore, -, hbindings⟩ := exists_scope_of_define hscope
    have hallocated : binding.2.Allocated store := by
      rcases hbindings binding hbinding with rfl | hold
      · exact hvalue
      · exact h.bindings hbefore hold
    exact hallocated.mono (Nat.le_of_eq (size_define store id name value).symm)

theorem lookup (h : store.WellFormed) {id : ScopeId} {name : String}
    {value : Value} (hvalue : store.lookup id name = some value) :
    value.Allocated store := by
  obtain ⟨other, scope, binding, hscope, hbinding, rfl⟩ :=
    exists_binding_of_lookup hvalue
  exact h.bindings hscope hbinding

end WellFormed

/-- Every store that is well-formed corresponds to itself, and so do the scopes
that are there. -/
def itself : Correspondence where
  stores s s' := s = s' ∧ s.WellFormed
  scopes s _ id id' := id = id' ∧ id < s.scopes.size
  serials _ _ n n' := n = n'

theorem itself_values_iff {s s' : Store} {v v' : Value} :
    itself.values s s' v v' ↔ v = v' ∧ v.Allocated s := by
  constructor
  · intro h
    refine h.eq_and_holds fun c d hc => ?_
    cases c
    cases d
    obtain ⟨rfl, rfl, rfl, rfl, hscope⟩ := hc
    exact ⟨rfl, hscope⟩
  · rintro ⟨rfl, h⟩
    exact v.alike_self fun closure hclosure =>
      ⟨rfl, rfl, rfl, rfl, h closure hclosure⟩

theorem itself_persists {s s' t t' : Store}
    (h : s.scopes.size ≤ t.scopes.size) : itself.Persists s s' t t' where
  scopes := fun ⟨heq, hid⟩ => ⟨heq, Nat.lt_of_lt_of_le hid h⟩
  serials heq := heq

theorem itself_lawful : itself.Lawful where
  serials := by
    rintro s s' m _ n _ rfl rfl
    exact Iff.rfl
  lookup := by
    rintro s _ id _ ⟨rfl, hs⟩ ⟨rfl, -⟩ name
    cases hlookup : s.lookup id name with
    | none => exact .none
    | some value => exact .some (itself_values_iff.2 ⟨rfl, hs.lookup hlookup⟩)
  makeFunction := by
    rintro s _ id _ ⟨rfl, hs⟩ ⟨rfl, hid⟩ parameters body
    refine .ok ⟨rfl, hs.of_scopes_eq rfl⟩ (itself_persists (Nat.le_refl _)) ?_
    exact .function ⟨rfl, rfl, rfl, rfl, hid⟩
  addScope := by
    rintro s _ id _ ⟨rfl, hs⟩ ⟨rfl, hid⟩
    have hparent : ∀ outer ∈ some id, outer < s.scopes.size := by
      rintro _ ⟨⟩
      exact hid
    refine .ok ⟨rfl, hs.addScope hparent⟩
      (itself_persists (size_le_addScope s _)) ⟨rfl, ?_⟩
    exact lt_size_addScope s _
  define := by
    rintro s _ id _ v _ ⟨rfl, hs⟩ ⟨rfl, -⟩ name hvalue
    obtain ⟨rfl, hv⟩ := itself_values_iff.1 hvalue
    refine .ok ⟨rfl, hs.define id name hv⟩ (itself_persists ?_) trivial
    exact Nat.le_of_eq (size_define s id name v).symm
  print := by
    rintro s _ ⟨rfl, hs⟩ line
    exact .ok ⟨rfl, hs.of_scopes_eq rfl⟩
      (itself_persists (Nat.le_refl _)) trivial

theorem itself_lasting : itself.Lasting where
  toLawful := itself_lawful
  addRoot := by
    rintro s _ ⟨rfl, hs⟩
    refine .ok ⟨rfl, hs.addScope nofun⟩
      (itself_persists (size_le_addScope s none)) ⟨rfl, ?_⟩
    exact lt_size_addScope s none
  takeOutput := by
    rintro s _ ⟨rfl, hs⟩
    exact ⟨⟨rfl, hs.of_scopes_eq rfl⟩, itself_persists (Nat.le_refl _)⟩

/-- The scopes seen from a scope: itself and, one by one, the scopes around
it. -/
inductive Chain (store : Store) : ScopeId → List ScopeId → Prop
  | outermost {id : ScopeId} {scope : Scope}
      (hscope : store.scopes[id]? = some scope)
      (hparent : scope.parent = none) : Chain store id [id]
  | inside {id parent : ScopeId} {scope : Scope} {ids : List ScopeId}
      (hscope : store.scopes[id]? = some scope)
      (hparent : scope.parent = some parent)
      (h : Chain store parent ids) : Chain store id (id :: ids)

/-- What a scope itself binds to a name. -/
def bound (store : Store) (id : ScopeId) (name : String) : Option Value :=
  store.scopes[id]?.bind fun scope => scope.bindings.find? name

theorem WellFormed.exists_chain {store : Store} (h : store.WellFormed)
    (id : ScopeId) (hid : id < store.scopes.size) :
    ∃ ids, store.Chain id ids := by
  induction id using Nat.strongRecOn with
  | ind id ih =>
      have hscope : store.scopes[id]? = some store.scopes[id] :=
        Array.getElem?_eq_getElem hid
      cases hparent : store.scopes[id].parent with
      | none => exact ⟨[id], .outermost hscope hparent⟩
      | some parent =>
          have hlt := h.parents hscope hparent
          obtain ⟨ids, hids⟩ := ih parent hlt (Nat.lt_trans hlt hid)
          exact ⟨id :: ids, .inside hscope hparent hids⟩

/-- A name has the value that the first scope on the chain gives to it. -/
theorem WellFormed.lookup_eq {store : Store} (h : store.WellFormed)
    {id : ScopeId} {ids : List ScopeId} (hids : store.Chain id ids)
    (name : String) :
    store.lookup id name = ids.findSome? (store.bound · name) := by
  induction hids with
  | @outermost id scope hscope hparent =>
      have hbound : store.bound id name = scope.bindings.find? name := by
        rw [bound, hscope, Option.bind_some]
      rw [Store.lookup, hscope, List.findSome?_singleton, hbound]
      cases hfound : scope.bindings.find? name with
      | some value => simp only [hfound]
      | none => simp only [hfound, hparent]
  | @inside id parent scope ids hscope hparent _ ih =>
      have hbound : store.bound id name = scope.bindings.find? name := by
        rw [bound, hscope, Option.bind_some]
      rw [Store.lookup, hscope, List.findSome?_cons, hbound]
      cases hfound : scope.bindings.find? name with
      | some value => simp only [hfound]
      | none =>
          -- The scope around is older, so the walk goes on.
          simp only [hfound, hparent, if_pos (h.parents hscope hparent)]
          exact ih

/-- Every scope is still there, inside the same scope. -/
def Grows (before after : Store) : Prop :=
  ∀ (id : ScopeId) (scope : Scope), before.scopes[id]? = some scope →
    ∃ scope', after.scopes[id]? = some scope' ∧ scope'.parent = scope.parent

section

variable {first second third : Store}

theorem Grows.of_eq (h : second.scopes = first.scopes) :
    first.Grows second := by
  intro id scope hscope
  exact ⟨scope, h ▸ hscope, rfl⟩

theorem Grows.trans (h : first.Grows second) (h' : second.Grows third) :
    first.Grows third := by
  intro id scope hscope
  obtain ⟨between, hbetween, heq⟩ := h id scope hscope
  obtain ⟨after, hafter, heq'⟩ := h' id between hbetween
  exact ⟨after, hafter, heq'.trans heq⟩

theorem Frame.grows {scope : ScopeId} {names : List String}
    (h : first.Frame scope names second) : first.Grows second := by
  intro id s hscope
  by_cases hid : id = scope
  · subst hid
    obtain ⟨after, hafter, heq, -⟩ := h.own hscope
    exact ⟨after, hafter, heq⟩
  · exact ⟨s, h.others hid hscope, rfl⟩

theorem Untouched.grows (h : first.Untouched second) : first.Grows second :=
  fun id scope hscope => ⟨scope, h id scope hscope, rfl⟩

theorem grows_define (store : Store) (id : ScopeId) (name : String)
    (value : Value) : store.Grows (store.define id name value) :=
  (store.frame_define List.mem_cons_self value : store.Frame id [name] _).grows

/-- What a scope sees stays the same. -/
theorem Chain.grows {id : ScopeId} {ids : List ScopeId} (h : first.Chain id ids)
    (hgrows : first.Grows second) : second.Chain id ids := by
  induction h with
  | outermost hscope hparent =>
      obtain ⟨after, hafter, heq⟩ := hgrows _ _ hscope
      exact .outermost hafter (heq.trans hparent)
  | inside hscope hparent _ ih =>
      obtain ⟨after, hafter, heq⟩ := hgrows _ _ hscope
      exact .inside hafter (heq.trans hparent) ih

end

/-- The store in which the body of a called function is run: with a new scope,
in which its parameters are bound in turn. -/
def entered (store : Store) (parent : ScopeId)
    (bindings : List (String × Value)) : Store :=
  bindings.foldl
    (fun later binding => later.define store.scopes.size binding.1 binding.2)
    (store.addScope (some parent)).2

theorem grows_foldl_define (store : Store) (id : ScopeId)
    (bindings : List (String × Value)) :
    store.Grows
      (bindings.foldl (fun later binding => later.define id binding.1 binding.2)
        store) := by
  induction bindings generalizing store with
  | nil => exact .of_eq rfl
  | cons binding bindings ih =>
      exact (store.grows_define id binding.1 binding.2).trans (ih _)

theorem grows_entered (store : Store) (parent : ScopeId)
    (bindings : List (String × Value)) :
    store.Grows (store.entered parent bindings) :=
  (store.untouched_addScope (some parent)).grows.trans
    (grows_foldl_define _ _ bindings)

theorem chain_entered {store : Store} {parent : ScopeId} {ids : List ScopeId}
    (h : store.Chain parent ids) (bindings : List (String × Value)) :
    (store.entered parent bindings).Chain store.scopes.size
    (store.scopes.size :: ids) := by
  have hscope : (store.addScope (some parent)).2.scopes[store.scopes.size]? =
      some ⟨[], some parent⟩ := Array.getElem?_push_size
  have hchain :=
    Chain.inside hscope rfl (h.grows (store.untouched_addScope _).grows)
  exact hchain.grows (grows_foldl_define _ _ bindings)

theorem bound_define {store : Store} {id : ScopeId}
    (hid : id < store.scopes.size) (key : String) (value : Value)
    (name : String) :
    (store.define id key value).bound id name =
      if name = key then some value else store.bound id name := by
  have hscope : store.scopes[id]? = some store.scopes[id] :=
    Array.getElem?_eq_getElem hid
  rw [bound, bound, define, Array.getElem?_modify, if_pos rfl, hscope]
  by_cases hname : name = key
  · subst hname
    rw [if_pos rfl]
    exact Table.find?_insert_self _ _ _
  · rw [if_neg hname]
    exact Table.find?_insert_of_ne _ _ hname

theorem bound_foldl_define {store : Store} {id : ScopeId}
    (hid : id < store.scopes.size) (bindings : List (String × Value))
    (name : String) :
    (bindings.foldl (fun later binding => later.define id binding.1 binding.2)
      store).bound id
        name = (bindings.reverse.lookup name).or (store.bound id name) := by
  induction bindings generalizing store with
  | nil => rfl
  | cons binding bindings ih =>
      obtain ⟨key, value⟩ := binding
      have hid' : id < (store.define id key value).scopes.size := by
        rw [size_define]
        exact hid
      rw [List.foldl_cons, ih hid', List.reverse_cons, List.lookup_append,
        bound_define hid, Option.or_assoc]
      by_cases hname : name = key
      · simp [hname]
      · simp [List.lookup_cons, hname, beq_eq_false_iff_ne.2 hname]

/-- The new scope binds the parameters and nothing else, each to its own
argument, or to the last one if it is repeated. -/
theorem bound_entered (store : Store) (parent : ScopeId)
    (bindings : List (String × Value)) (name : String) :
    (store.entered parent bindings).bound store.scopes.size name =
      bindings.reverse.lookup name := by
  rw [entered, bound_foldl_define (store.lt_size_addScope _)]
  have hbound : (store.addScope (some parent)).2.bound store.scopes.size name =
      none := by
    rw [bound, addScope, Array.getElem?_push_size]
    rfl
  rw [hbound, Option.or_none]

end Store

namespace Eval

theorem forM_define (scope : ScopeId) (bindings : List (String × Value))
    (store : Store) :
    (bindings.forM fun (name, value) => modify (·.define scope name value) :
      EvalM PUnit) store =
      .ok ⟨⟩
        (bindings.foldl
          (fun later binding => later.define scope binding.1 binding.2)
          store) := by
  induction bindings generalizing store with
  | nil => rfl
  | cons binding bindings ih =>
      exact ih (store.define scope binding.1 binding.2)

/-- A call runs the body in a new scope inside the one that the function belongs
to. -/
theorem callClosure_eq_block (eval : Evaluator) {closure : Closure}
    {arguments : List Value} (h : arguments.length = closure.parameters.length)
    (store : Store) :
    callClosure eval closure arguments store =
      (Value.ofOutcome <$> block eval store.scopes.size closure.body)
        (store.entered closure.scope (closure.parameters.zip arguments)) := by
  rw [callClosure_eq_callIn eval h, map_eq_pure_bind]
  exact EvalM.bind_of_ok
    (forM_define store.scopes.size _ (store.addScope (some closure.scope)).2)

section

variable (limit levels : Nat)

theorem leads_grows_eval (scope : ScopeId) (e : Expr) :
    (Expr.eval limit levels scope e).Leads Store.Grows := by
  intro store
  exact (contained_eval limit levels scope e.binds e (List.Subset.refl _)
    store).grows

theorem leads_grows_statement (scope : ScopeId) (s : Statement) :
    (statement (Expr.eval limit levels) scope s).Leads Store.Grows := by
  intro store
  have hruns := (contained_eval limit levels).runsAlike scope s.binds
  exact (hruns.statement s (List.Subset.refl _) store).grows

theorem leads_grows_block (scope : ScopeId) (body : Block) :
    (block (Expr.eval limit levels) scope body).Leads Store.Grows := by
  intro store
  have hruns :=
    (contained_eval limit levels).runsAlike scope (bindsStatements body)
  exact (hruns.statements none body (List.Subset.refl _) store).grows

theorem leads_grows_apply (callee : Value) (arguments : List Value) :
    (apply (Expr.eval limit levels) callee arguments).Leads Store.Grows := by
  intro store
  exact ((contained_eval limit levels).untouched_apply callee arguments
    store).grows

end

end Eval

namespace Session

/-- A scope that can be named from outside: the session works in it or goes back
to it, or a function belongs to it that is in one of the values at hand. -/
inductive Handle (session : Session) (held : List Value) : ScopeId → Prop
  | current : Handle session held session.scope
  | outer {id : ScopeId} (hid : id ∈ session.outer) : Handle session held id
  | function {value : Value} {closure : Closure} (hvalue : value ∈ held)
      (hclosure : value.Holds closure) : Handle session held closure.scope

/-- Every function in the value is in one of the values at hand. -/
def Supplies (held : List Value) (value : Value) : Prop :=
  ∀ closure, value.Holds closure → ∃ other ∈ held, other.Holds closure

/-- One thing done with a session, together with the values at hand: those that
have come out of the session so far. -/
inductive Turn : Session × List Value → Session × List Value → Prop
  | enter {session : Session} {held : List Value} :
      Turn (session, held) (session.enter, held)
  | leave {session : Session} {held : List Value} :
      Turn (session, held) (session.leave, held)
  | moveTo {session : Session} {held : List Value} {id : ScopeId}
      (h : session.Handle held id) :
      Turn (session, held) ({ session with scope := id }, held)
  | setLimit {session : Session} {held : List Value} (limit : Nat) :
      Turn (session, held) ({ session with limit }, held)
  | define {session : Session} {held : List Value} (name : String)
      {value : Value} (h : Supplies held value) :
      Turn (session, held) (session.define name value, held)
  | lookup {session : Session} {held : List Value} {name : String}
      {value : Value} (h : session.lookup name = some value) :
      Turn (session, held) (session, value :: held)
  | makeFunction {session : Session} {held : List Value}
      (parameters : List String) (body : Block) : Turn (session, held)
        ((session.makeFunction parameters body).2,
          (session.makeFunction parameters body).1 :: held)
  | takeOutput {session : Session} {held : List Value} :
      Turn (session, held) (session.takeOutput.2, held)
  | statement {session : Session} {held : List Value} (s : Statement) :
      Turn (session, held) ((session.statement s).2,
        (session.statement s).1.toOption.join.toList ++ held)
  | block {session : Session} {held : List Value} (body : Block) :
      Turn (session, held) ((session.block body).2,
        (session.block body).1.toOption.join.toList ++ held)
  | expression {session : Session} {held : List Value} (e : Expr) :
      Turn (session, held) ((session.expression e).2,
        (session.expression e).1.toOption.toList ++ held)
  | apply {session : Session} {held : List Value} {callee : Value}
      {arguments : List Value} (hcallee : Supplies held callee)
      (harguments : ∀ argument ∈ arguments, Supplies held argument) :
      Turn (session, held)
        ((session.apply callee arguments).2,
          (session.apply callee arguments).1.toOption.toList ++ held)
  | program {session : Session} {held : List Value} (source : Program) :
      Turn (session, held) ((session.program source).2,
        (session.program source).1 :: held)

/-- What a session has in it corresponds to itself. -/
structure Fits (R : Correspondence) (session : Session) (held : List Value) :
    Prop where
  stores : R.stores session.store session.store
  current : R.scopes session.store session.store session.scope session.scope
  outer {id : ScopeId} (hid : id ∈ session.outer) :
    R.scopes session.store session.store id id
  values {value : Value} (hvalue : value ∈ held) :
    R.values session.store session.store value value

namespace Fits

variable {R : Correspondence} {session : Session} {held : List Value}

theorem supplied (h : session.Fits R held) {value : Value}
    (hvalue : Supplies held value) :
    R.values session.store session.store value value := by
  refine value.alike_self fun closure hclosure => ?_
  obtain ⟨other, hother, hholds⟩ := hvalue closure hclosure
  exact (h.values hother).of_holds hholds

theorem handle (h : session.Fits R held) {id : ScopeId}
    (hid : session.Handle held id) :
    R.scopes session.store session.store id id := by
  cases hid with
  | current => exact h.current
  | outer hid => exact h.outer hid
  | function hvalue hclosure =>
      exact ((h.values hvalue).of_holds hclosure).scope

theorem append (h : session.Fits R held) {values : List Value}
    (hvalues : ∀ value ∈ values,
      R.values session.store session.store value value) :
    session.Fits R (values ++ held) where
  stores := h.stores
  current := h.current
  outer := h.outer
  values hvalue := (List.mem_append.1 hvalue).elim (hvalues _) h.values

theorem cons (h : session.Fits R held) {value : Value}
    (hvalue : R.values session.store session.store value value) :
    session.Fits R (value :: held) :=
  h.append (List.forall_mem_singleton.2 hvalue)

theorem withStore (h : session.Fits R held) {after : Store}
    (hstores : R.stores after after)
    (hpersists : R.Persists session.store session.store after after) :
    ({ session with store := after } : Session).Fits R held where
  stores := hstores
  current := hpersists.scopes h.current
  outer hid := hpersists.scopes (h.outer hid)
  values hvalue := hpersists.values (h.values hvalue)

theorem perform (h : session.Fits R held) {α : Type} {run : EvalM α}
    {good : Store → Store → α → α → Prop}
    (hends : R.Ends session.store session.store good (run session.store)
      (run session.store)) :
    (session.perform run).2.Fits R held ∧ ∀ a, (session.perform run).1 = .ok a →
      good (session.perform run).2.store (session.perform run).2.store a a := by
  rw [Session.perform]
  cases hrun : run session.store with
  | ok a after =>
      rw [hrun] at hends
      cases hends with
      | ok hstores hpersists ha =>
          refine ⟨h.withStore hstores hpersists, ?_⟩
          rintro _ ⟨⟩
          exact ha
  | error fault after =>
      rw [hrun] at hends
      cases hends with
      | error _ hstores hpersists =>
          exact ⟨h.withStore hstores hpersists, nofun⟩

theorem performValue (h : session.Fits R held) {run : EvalM Value}
    (hends : R.Ends session.store session.store R.values (run session.store)
      (run session.store)) :
    (session.perform run).2.Fits R
    ((session.perform run).1.toOption.toList ++ held) := by
  obtain ⟨hfits, hvalue⟩ := h.perform hends
  refine hfits.append fun value hmem => ?_
  cases hresult : (session.perform run).1 with
  | error fault => simp [hresult, Except.toOption] at hmem
  | ok result =>
      obtain rfl : value = result := by
        simpa [hresult, Except.toOption] using hmem
      exact hvalue value hresult

theorem performOutcome (h : session.Fits R held) {run : EvalM (Option Value)}
    (hends : R.Ends session.store session.store R.outcomes (run session.store)
      (run session.store)) :
    (session.perform run).2.Fits R
    ((session.perform run).1.toOption.join.toList ++ held) := by
  obtain ⟨hfits, hvalue⟩ := h.perform hends
  refine hfits.append fun value hmem => ?_
  cases hresult : (session.perform run).1 with
  | error fault => simp [hresult, Except.toOption] at hmem
  | ok outcome =>
      obtain rfl : outcome = some value := by
        simpa [hresult, Except.toOption] using hmem
      cases hvalue _ hresult with
      | some hvalue => exact hvalue

theorem enter (h : session.Fits R held) (hR : R.Lawful) :
    session.enter.Fits R held := by
  cases hR.addScope h.stores h.current with
  | ok hstores hpersists hfresh =>
      have hafter := h.withStore hstores hpersists
      refine ⟨hstores, hfresh, fun hid => ?_, hafter.values⟩
      rcases List.mem_cons.1 hid with rfl | hid
      · exact hafter.current
      · exact hafter.outer hid

theorem leave (h : session.Fits R held) : session.leave.Fits R held := by
  rw [Session.leave]
  split
  · exact h
  · next scope outer houter =>
      have hmem : ∀ id ∈ scope :: outer,
          R.scopes session.store session.store id id :=
        fun id hid => h.outer (houter ▸ hid)
      refine ⟨h.stores, hmem scope List.mem_cons_self, fun hid => ?_, h.values⟩
      exact hmem _ (List.mem_cons_of_mem scope hid)

theorem define (h : session.Fits R held) (hR : R.Lawful) (name : String)
    {value : Value} (hvalue : Supplies held value) :
    (session.define name value).Fits R held := by
  cases hR.define h.stores h.current name (h.supplied hvalue) with
  | ok hstores hpersists _ => exact h.withStore hstores hpersists

theorem lookup (h : session.Fits R held) (hR : R.Lawful) {name : String}
    {value : Value} (hvalue : session.lookup name = some value) :
    session.Fits R (value :: held) := by
  have hfound : R.outcomes session.store session.store (session.lookup name)
      (session.lookup name) := hR.lookup h.stores h.current name
  rw [hvalue] at hfound
  cases hfound with
  | some hvalue => exact h.cons hvalue

theorem makeFunction (h : session.Fits R held) (hR : R.Lasting)
    (parameters : List String) (body : Block) :
    (session.makeFunction parameters body).2.Fits R
      ((session.makeFunction parameters body).1 :: held) := by
  cases hR.addRoot h.stores with
  | ok hstores hpersists hroot =>
      cases hR.makeFunction hstores hroot parameters body with
      | ok hstores' hpersists' hvalue =>
          exact (h.withStore hstores' (hpersists.trans hpersists')).cons hvalue

theorem program (h : session.Fits R held) (hR : R.Lawful) (source : Program) :
    (session.program source).2.Fits R ((session.program source).1 :: held) := by
  have hends :=
    hR.block (hR.follows_eval session.limit session.limit) h.stores
      h.current source
  rw [Session.program, Eval.program, Eval.evaluator]
  cases hrun : Eval.block (Expr.eval session.limit session.limit)
    session.scope source
      session.store with
  | ok outcome after =>
      rw [hrun] at hends
      cases hends with
      | ok hstores hpersists houtcome =>
          exact (h.withStore hstores hpersists).cons
            (Correspondence.Lawful.ofOutcome houtcome)
  | error fault after =>
      rw [hrun] at hends
      cases hends with
      | error _ hstores hpersists =>
          exact (h.withStore hstores hpersists).cons (.fault fault)

/-- Whatever is done with a session, what it has in it corresponds to itself
again. -/
theorem turn {session' : Session} {held' : List Value} (h : session.Fits R held)
    (hR : R.Lasting) (hturn : Turn (session, held) (session', held')) :
    session'.Fits R held' := by
  have hfollows := hR.follows_eval session.limit session.limit
  cases hturn with
  | enter => exact h.enter hR.toLawful
  | leave => exact h.leave
  | moveTo hid => exact ⟨h.stores, h.handle hid, h.outer, h.values⟩
  | setLimit limit => exact ⟨h.stores, h.current, h.outer, h.values⟩
  | define name hvalue => exact h.define hR.toLawful name hvalue
  | lookup hvalue => exact h.lookup hR.toLawful hvalue
  | makeFunction parameters body => exact h.makeFunction hR parameters body
  | takeOutput =>
      obtain ⟨hstores, hpersists⟩ := hR.takeOutput h.stores
      exact h.withStore hstores hpersists
  | statement s =>
      exact h.performOutcome (hR.statement hfollows h.stores h.current s)
  | block body =>
      exact h.performOutcome (hR.block hfollows h.stores h.current body)
  | expression e => exact h.performValue (hfollows e h.stores h.current)
  | apply hcallee harguments =>
      refine h.performValue (hR.apply hfollows h.stores (h.supplied hcallee) ?_)
      exact List.forall₂_same.2 fun argument hmem =>
        h.supplied (harguments argument hmem)
  | program source => exact h.program hR.toLawful source

theorem turns {start later : Session × List Value} (hR : R.Lasting)
    (hturns : Relation.ReflTransGen Turn start later)
    (h : start.1.Fits R start.2) : later.1.Fits R later.2 := by
  induction hturns with
  | refl => exact h
  | tail _ hturn ih => exact ih.turn hR hturn

/-- A session that has just been started has one scope and nothing else in
it. -/
theorem start (hR : R.Lasting) (hempty : R.stores Store.empty Store.empty)
    (limit : Nat) : (Session.start limit).Fits R [] := by
  cases hR.addRoot hempty with
  | ok hstores _ hroot => exact ⟨hstores, hroot, nofun, nofun⟩

end Fits

/-- The store is well-formed, and what can be named from outside is there. -/
structure Sound (session : Session) (held : List Value) : Prop where
  store : session.store.WellFormed
  handles {id : ScopeId} (h : session.Handle held id) :
    id < session.store.scopes.size

namespace Sound

theorem iff_fits {session : Session} {held : List Value} :
    session.Sound held ↔ session.Fits Store.itself held := by
  constructor
  · intro h
    refine ⟨⟨rfl, h.store⟩, ⟨rfl, h.handles .current⟩,
      fun hid => ⟨rfl, h.handles (.outer hid)⟩, ?_⟩
    intro value hvalue
    exact Store.itself_values_iff.2
      ⟨rfl, fun closure hclosure => h.handles (.function hvalue hclosure)⟩
  · intro h
    exact ⟨h.stores.2, fun hid => (h.handle hid).2⟩

theorem start (limit : Nat) : (Session.start limit).Sound [] :=
  iff_fits.2
    (Fits.start Store.itself_lasting ⟨rfl, Store.WellFormed.empty⟩ limit)

theorem turns {start end' : Session × List Value}
    (hturns : Relation.ReflTransGen Turn start end')
    (h : start.1.Sound start.2) : end'.1.Sound end'.2 :=
  iff_fits.2 (Fits.turns Store.itself_lasting hturns (iff_fits.1 h))

end Sound

theorem perform_snd {α : Type} (session : Session) (run : EvalM α) :
    (session.perform run).2 =
    { session with store := run.after session.store } := by
  rw [Session.perform, EvalM.after]
  cases run session.store <;> rfl

theorem perform_store {α : Type} (session : Session) (run : EvalM α) :
    (session.perform run).2.store = run.after session.store := by
  rw [perform_snd]

theorem grows_of_turn {session session' : Session} {held held' : List Value}
    (h : Turn (session, held) (session', held')) :
    session.store.Grows session'.store := by
  cases h with
  | enter => exact (session.store.untouched_addScope _).grows
  | leave =>
      rw [Session.leave]
      split <;> exact .of_eq rfl
  | define name _ => exact session.store.grows_define _ name _
  | makeFunction => exact (session.store.untouched_addScope none).grows
  | statement s =>
      rw [Session.statement, perform_store]
      exact Eval.leads_grows_statement _ _ _ s session.store
  | block body =>
      rw [Session.block, perform_store]
      exact Eval.leads_grows_block _ _ _ body session.store
  | expression e =>
      rw [Session.expression, perform_store]
      exact Eval.leads_grows_eval _ _ _ e session.store
  | apply =>
      rw [Session.apply, perform_store]
      exact Eval.leads_grows_apply _ _ _ _ session.store
  | program source =>
      change session.store.Grows (Eval.program _ _ source session.store).2
      rw [Eval.program_snd]
      exact Eval.leads_grows_block _ _ _ source session.store
  | _ => exact .of_eq rfl

theorem grows_of_turns {start later : Session × List Value}
    (h : Relation.ReflTransGen Turn start later) :
    start.1.store.Grows later.1.store := by
  induction h with
  | refl => exact .of_eq rfl
  | tail _ hturn ih => exact ih.trans (grows_of_turn hturn)

/-- Whatever is done with a fresh session, in any order and number:

* the scope around a scope is older, every function in a binding belongs to a
  scope that is there, and so does everything that can be named from outside;
* from every scope a finite chain of scopes is seen, and a name has the value
  that the first of them binds to it;
* a function sees, in every call and at every later time, the new scope of the
  call, in which its parameters are bound, and then the chain that was seen
  where it was made;
* later stores, in the session and in every run, only add to the scopes. -/
theorem lexical_scopes {limit : Nat} {session : Session} {held : List Value}
    (h : Relation.ReflTransGen Turn (start limit, []) (session, held)) :
    session.store.WellFormed ∧
      (∀ id, session.Handle held id → id < session.store.scopes.size) ∧
      (∀ id < session.store.scopes.size, ∃ ids, session.store.Chain id ids ∧
        ∀ name, session.store.lookup id name =
          ids.findSome? (session.store.bound · name)) ∧
      (∀ (store : Store) (scope : ScopeId) (ids : List ScopeId),
        store.Chain scope ids →
        ∀ (limit levels : Nat) (parameters : List String) (body : Block),
          ∃ closure made,
          Expr.eval limit (levels + 1) scope (.function parameters body) store =
            .ok (.function closure) made ∧
          ∀ later, made.Grows later →
          ∀ (eval : Evaluator) (arguments : List Value),
            arguments.length = parameters.length →
            ∃ called, later.Grows called ∧
              Eval.apply eval (.function closure) arguments later =
                (Value.ofOutcome <$> Eval.block eval later.scopes.size body)
                  called ∧
              (∀ name, called.bound later.scopes.size name =
                (parameters.zip arguments).reverse.lookup name) ∧
              ∀ now, called.Grows now →
                now.Chain later.scopes.size (later.scopes.size :: ids)) ∧
      (∀ later, Relation.ReflTransGen Turn (session, held) later →
        session.store.Grows later.1.store) ∧
      ∀ limit levels scope,
        (∀ e, (Expr.eval limit levels scope e).Leads Store.Grows) ∧
        (∀ body,
          (Eval.block (Expr.eval limit levels) scope body).Leads Store.Grows) ∧
        ∀ callee arguments,
          (Eval.apply (Expr.eval limit levels) callee arguments).Leads
            Store.Grows := by
  have hsound := Sound.turns h (Sound.start limit)
  refine ⟨hsound.store, fun id => hsound.handles, ?_, ?_, ?_, ?_⟩
  · intro id hid
    obtain ⟨ids, hids⟩ := hsound.store.exists_chain id hid
    exact ⟨ids, hids, hsound.store.lookup_eq hids⟩
  · intro store scope ids hids limit levels parameters body
    refine ⟨_, _, rfl, ?_⟩
    intro later hlater eval arguments hlength
    -- Making the function has not touched the scopes, so its chain is there
    -- later.
    have hids : later.Chain scope ids := (hids.grows (.of_eq rfl)).grows hlater
    refine ⟨_, later.grows_entered scope (parameters.zip arguments), ?_, ?_, ?_⟩
    · exact Eval.callClosure_eq_block eval hlength later
    · exact later.bound_entered scope _
    · intro now hnow
      exact (Store.chain_entered hids _).grows hnow
  · intro later hlater
    exact grows_of_turns hlater
  · intro limit levels scope
    exact ⟨Eval.leads_grows_eval limit levels scope,
      Eval.leads_grows_block limit levels scope,
      Eval.leads_grows_apply limit levels⟩

/-- A function that is bound in its own scope. -/
theorem lexical_scopes_of_circle :
    let session := ((start 8).program
      [.binding "f" (.function ["x"] [.expression (.identifier "f")])]).2
    session.store.WellFormed ∧
      (∃ closure, session.store.bound 0 "f" = some (.function closure) ∧
        closure.scope = 0) ∧
      ∃ ids, session.store.Chain 0 ids ∧
        ∀ name, session.store.lookup 0 name =
          ids.findSome? (session.store.bound · name) := by
  intro session
  have hturns : Relation.ReflTransGen Turn (start 8, []) (session, _) :=
    .single (.program
      [.binding "f" (.function ["x"] [.expression (.identifier "f")])])
  obtain ⟨hstore, -, hchains, -⟩ := lexical_scopes hturns
  exact ⟨hstore, ⟨_, rfl, rfl⟩, hchains 0 (by decide)⟩

end Session

end Scriptlet
