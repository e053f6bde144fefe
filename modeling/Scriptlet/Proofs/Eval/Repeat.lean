/-
A call made twice.  All that a call leaves behind is printed text, and scopes
and functions that nothing else refers to.  The second call has the same scopes
and functions at hand as the first one, and what it adds comes further behind in
the store: moved by a distance that is the same throughout, it is what the first
call added.
-/
import Scriptlet.Proofs.Eval.Scopes

namespace Scriptlet

/-- Every function in the value was made before. -/
def Value.Dated (store : Store) (value : Value) : Prop :=
  ∀ closure, value.Holds closure → closure.serial < store.functions

namespace Value

theorem sameValues_eq_true {xs ys : List Value}
    (h : List.Forall₂ (fun x y => x.same y = true) xs ys) :
    sameValues xs ys = true := by
  induction h with
  | nil => rfl
  | cons hfirst _ ih => rw [sameValues, hfirst, ih, Bool.and_true]

theorem sameEntries_eq_true {xs ys : List (HashKey × Value)}
    (h : List.Forall₂ (fun x y => x.1 = y.1 ∧ x.2.same y.2 = true) xs ys) :
    sameEntries xs ys = true := by
  induction h with
  | nil => rfl
  | cons hfirst _ ih => simp [sameEntries, hfirst.1, hfirst.2, ih]

/-- Values are equal if their functions have the same serial numbers. -/
theorem Alike.same_of_serials {fn : Closure → Closure → Prop} {v w : Value}
    (h : v.Alike fn w)
    (hserials : ∀ c d, v.Holds c → fn c d → c.serial = d.serial) :
    v.same w = true := by
  induction h with
  | array hlength _ ih =>
      refine sameValues_eq_true
        (List.forall₂_iff_zip.2 ⟨hlength, fun hmem => ?_⟩)
      refine ih _ _ hmem fun c d hc =>
        hserials c d (.array (List.of_mem_zip hmem).1 hc)
  | hash hlength hkeys _ ih =>
      refine sameEntries_eq_true
        (List.forall₂_iff_zip.2 ⟨hlength, fun hmem => ?_⟩)
      refine ⟨hkeys _ _ hmem, ih _ _ hmem fun c d hc => ?_⟩
      exact hserials c d (.hash (List.of_mem_zip hmem).1 hc)
  | function h => simp [Value.same, hserials _ _ (.function _) h]
  | returning _ ih => exact ih fun c d hc => hserials c d (.returning hc)
  | _ => simp [Value.same]

end Value

theorem Value.Dated.mono {before after : Store} {value : Value}
    (h : value.Dated before) (hle : before.functions ≤ after.functions) :
    value.Dated after :=
  fun closure hclosure => Nat.lt_of_lt_of_le (h closure hclosure) hle

namespace Store

/-- Every function in a binding was made before. -/
def Dated (store : Store) : Prop :=
  ∀ ⦃id : ScopeId⦄ ⦃scope : Scope⦄ ⦃binding : String × Value⦄,
    store.scopes[id]? = some scope →
    binding ∈ scope.bindings → binding.2.Dated store

namespace Dated

variable {store : Store}

theorem of_scopes_eq {other : Store} (h : store.Dated)
    (heq : other.scopes = store.scopes)
    (hle : store.functions ≤ other.functions) : other.Dated := by
  intro id scope binding hscope hbinding
  rw [heq] at hscope
  exact (h hscope hbinding).mono hle

theorem addScope (h : store.Dated) (parent : Option ScopeId) :
    (store.addScope parent).2.Dated := by
  intro id scope binding hscope hbinding
  rcases scope_of_addScope hscope with ⟨-, rfl⟩ | hold
  · cases hbinding
  · exact h hold hbinding

theorem define (h : store.Dated) (id : ScopeId) (name : String) {value : Value}
    (hvalue : value.Dated store) : (store.define id name value).Dated := by
  intro other scope binding hscope hbinding
  obtain ⟨before, hbefore, -, hbindings⟩ := exists_scope_of_define hscope
  rcases hbindings binding hbinding with rfl | hold
  · exact hvalue
  · exact h hbefore hold

theorem lookup (h : store.Dated) {id : ScopeId} {name : String} {value : Value}
    (hvalue : store.lookup id name = some value) : value.Dated store := by
  obtain ⟨other, scope, binding, hscope, hbinding, rfl⟩ :=
    exists_binding_of_lookup hvalue
  exact h hscope hbinding

end Dated

/-- A store with no function from later on corresponds to itself. -/
def dated : Correspondence where
  stores s s' := s = s' ∧ s.Dated
  scopes _ _ id id' := id = id'
  serials s _ n n' := n = n' ∧ n < s.functions

theorem dated_values_iff {s s' : Store} {v v' : Value} :
    dated.values s s' v v' ↔ v = v' ∧ v.Dated s := by
  constructor
  · intro h
    refine h.eq_and_holds fun c d hc => ?_
    cases c
    cases d
    obtain ⟨rfl, rfl, ⟨rfl, hserial⟩, rfl⟩ := hc
    exact ⟨rfl, hserial⟩
  · rintro ⟨rfl, h⟩
    exact v.alike_self fun closure hclosure =>
      ⟨rfl, rfl, ⟨rfl, h closure hclosure⟩, rfl⟩

theorem dated_persists {s s' t t' : Store} (h : s.functions ≤ t.functions) :
    dated.Persists s s' t t' where
  scopes heq := heq
  serials := fun ⟨heq, hn⟩ => ⟨heq, Nat.lt_of_lt_of_le hn h⟩

theorem functions_le_of_persists {s s' t t' : Store}
    (h : dated.Persists s s' t t') : s.functions ≤ t.functions := by
  by_contra hlt
  exact Nat.lt_irrefl _ (h.serials ⟨rfl, Nat.lt_of_not_le hlt⟩).2

theorem dated_lasting : dated.Lasting where
  serials := by
    rintro s s' m _ n _ ⟨rfl, -⟩ ⟨rfl, -⟩
    exact Iff.rfl
  lookup := by
    rintro s _ id _ ⟨rfl, hs⟩ rfl name
    cases hlookup : s.lookup id name with
    | none => exact .none
    | some value => exact .some (dated_values_iff.2 ⟨rfl, hs.lookup hlookup⟩)
  makeFunction := by
    rintro s _ id _ ⟨rfl, hs⟩ rfl parameters body
    have hle : s.functions ≤ s.functions + 1 := Nat.le_succ _
    refine .ok ⟨rfl, hs.of_scopes_eq rfl hle⟩ (dated_persists hle) ?_
    exact .function ⟨rfl, rfl, ⟨rfl, Nat.lt_succ_self _⟩, rfl⟩
  addScope := by
    rintro s _ id _ ⟨rfl, hs⟩ rfl
    exact .ok ⟨rfl, hs.addScope _⟩ (dated_persists (Nat.le_refl _)) rfl
  define := by
    rintro s _ id _ v _ ⟨rfl, hs⟩ rfl name hvalue
    obtain ⟨rfl, hv⟩ := dated_values_iff.1 hvalue
    exact .ok ⟨rfl, hs.define id name hv⟩
      (dated_persists (Nat.le_refl _)) trivial
  print := by
    rintro s _ ⟨rfl, hs⟩ line
    exact .ok ⟨rfl, hs.of_scopes_eq rfl (Nat.le_refl _)⟩
      (dated_persists (Nat.le_refl _)) trivial
  addRoot := by
    rintro s _ ⟨rfl, hs⟩
    exact .ok ⟨rfl, hs.addScope none⟩ (dated_persists (Nat.le_refl _)) rfl
  takeOutput := by
    rintro s _ ⟨rfl, hs⟩
    exact ⟨⟨rfl, hs.of_scopes_eq rfl (Nat.le_refl _)⟩,
      dated_persists (Nat.le_refl _)⟩

theorem Untouched.size_le {before after : Store} (h : before.Untouched after) :
    before.scopes.size ≤ after.scopes.size := by
  by_contra hlt
  have hscope := Array.getElem?_eq_getElem (Nat.lt_of_not_le hlt)
  obtain ⟨hid, -⟩ := Array.getElem?_eq_some_iff.1 (h _ _ hscope)
  exact Nat.lt_irrefl _ hid

end Store

/-- Where something is in two rows of which the second one begins like the first
one: among the `old` things that were there before, or equally far behind `old`
and `old'`. -/
inductive Moved (old old' : Nat) : Nat → Nat → Prop
  | kept {i : Nat} (h : i < old) : Moved old old' i i
  | fresh (k : Nat) : Moved old old' (old + k) (old' + k)

namespace Moved

variable {old old' i i' j j' : Nat}

theorem lt_iff (hle : old ≤ old') (hi : Moved old old' i i')
    (hj : Moved old old' j j') : i < j ↔ i' < j' := by
  cases hi <;> cases hj <;> omega

theorem eq_iff (hle : old ≤ old') (hi : Moved old old' i i')
    (hj : Moved old old' j j') : i = j ↔ i' = j' := by
  cases hi <;> cases hj <;> omega

theorem eq_of_lt (h : Moved old old' i i') (hi : i < old) : i = i' := by
  cases h <;> omega

end Moved

namespace Store

/-- The same function, up to where it and its scope are in the two stores. -/
structure MovedFunction (first second : Store) (c c' : Closure) : Prop where
  parameters : c.parameters = c'.parameters
  body : c.body = c'.body
  serial : Moved first.functions second.functions c.serial c'.serial
  scope : Moved first.scopes.size second.scopes.size c.scope c'.scope

/-- The same scope, up to where things are in the two stores. -/
structure MovedScope (first second : Store) (scope scope' : Scope) : Prop where
  parent :
    Option.Rel (Moved first.scopes.size second.scopes.size) scope.parent
      scope'.parent
  bindings :
    List.Forall₂ (Value.Alike.Entry (MovedFunction first second)) scope.bindings
      scope'.bindings

/-- What has been done since `first` in one store has been done since `second`
in the other one. -/
structure Again (first second s s' : Store) : Prop where
  size :
    ∃ k, s.scopes.size = first.scopes.size + k ∧
    s'.scopes.size = second.scopes.size + k
  functions :
    ∃ k, s.functions = first.functions + k ∧ s'.functions = second.functions + k
  output :
    ∃ text, s.output = first.output ++ text ∧ s'.output = second.output ++ text
  scopes {id id' : ScopeId}
    (hid : Moved first.scopes.size second.scopes.size id id') :
    Option.Rel (MovedScope first second) s.scopes[id]? s'.scopes[id']?

def again (first second : Store) : Correspondence where
  stores := Again first second
  scopes _ _ := Moved first.scopes.size second.scopes.size
  serials _ _ := Moved first.functions second.functions

section

variable {first second s s' : Store} {id id' : ScopeId}

theorem again_functions :
    (again first second).Functions s s' = MovedFunction first second := by
  funext c c'
  refine propext ⟨fun h => ?_, fun h => ?_⟩
  · exact ⟨h.parameters, h.body, h.serial, h.scope⟩
  · exact ⟨h.parameters, h.body, h.serial, h.scope⟩

theorem again_persists {t t' : Store} :
    (again first second).Persists s s' t t' :=
  ⟨fun h => h, fun h => h⟩

namespace Again

theorem lookup (h : Again first second s s')
    (hle : first.scopes.size ≤ second.scopes.size)
    (hid : Moved first.scopes.size second.scopes.size id id') (name : String) :
    Option.Rel (Value.Alike (MovedFunction first second)) (s.lookup id name)
      (s'.lookup id' name) := by
  induction id using Nat.strongRecOn generalizing id' with
  | ind id ih =>
      rw [Store.lookup, Store.lookup]
      have hscope := h.scopes hid
      generalize s.scopes[id]? = scope at hscope ⊢
      generalize s'.scopes[id']? = scope' at hscope ⊢
      cases hscope with
      | none => exact .none
      | @some scope scope' hscope =>
          have hfound := Value.Alike.find? hscope.bindings name
          have hparent := hscope.parent
          dsimp only
          generalize scope.bindings.find? name = found at hfound ⊢
          generalize scope'.bindings.find? name = found' at hfound ⊢
          generalize scope.parent = parent at hparent ⊢
          generalize scope'.parent = parent' at hparent ⊢
          cases hfound with
          | some hvalue => exact .some hvalue
          | none =>
              cases hparent with
              | none => exact .none
              | @some parent parent' hparent =>
                  by_cases hlt : parent < id
                  · have hlt' := (hparent.lt_iff hle hid).1 hlt
                    simp only [if_pos hlt, if_pos hlt']
                    exact ih parent hlt hparent
                  · have hlt' := mt (hparent.lt_iff hle hid).2 hlt
                    simp only [if_neg hlt, if_neg hlt']
                    exact .none

theorem makeFunction (h : Again first second s s') :
    Again first second { s with functions := s.functions + 1 }
      { s' with functions := s'.functions + 1 } where
  size := h.size
  functions := by
    obtain ⟨k, hs, hs'⟩ := h.functions
    exact ⟨k + 1, by simp only [hs, Nat.add_assoc], by
      simp only [hs', Nat.add_assoc]⟩
  output := h.output
  scopes := h.scopes

theorem addScope (h : Again first second s s')
    (hle : first.scopes.size ≤ second.scopes.size)
    (hid : Moved first.scopes.size second.scopes.size id id') :
    Again first second (s.addScope (some id)).2 (s'.addScope (some id')).2 := by
  obtain ⟨k, hs, hs'⟩ := h.size
  refine ⟨⟨k + 1, ?_, ?_⟩, h.functions, h.output, fun {j j'} hj => ?_⟩
  · simp only [Store.addScope, Array.size_push, hs, Nat.add_assoc]
  · simp only [Store.addScope, Array.size_push, hs', Nat.add_assoc]
  · -- Both stores name the new scope by its position behind all the others.
    have hnew : j = s.scopes.size ↔ j' = s'.scopes.size := by
      rw [hs, hs']
      exact hj.eq_iff hle (.fresh k)
    rw [Store.addScope, Store.addScope, Array.getElem?_push,
      Array.getElem?_push]
    by_cases hlast : j = s.scopes.size
    · rw [if_pos hlast, if_pos (hnew.1 hlast)]
      exact .some ⟨.some hid, .nil⟩
    · rw [if_neg hlast, if_neg (mt hnew.2 hlast)]
      exact h.scopes hj

theorem define (h : Again first second s s')
    (hle : first.scopes.size ≤ second.scopes.size)
    (hid : Moved first.scopes.size second.scopes.size id id') (name : String)
    {v v' : Value} (hvalue : v.Alike (MovedFunction first second) v') :
    Again first second (s.define id name v) (s'.define id' name v') := by
  refine ⟨?_, h.functions, h.output, fun {j j'} hj => ?_⟩
  · obtain ⟨k, hs, hs'⟩ := h.size
    exact ⟨k, (size_define s id name v).trans hs,
      (size_define s' id' name v').trans hs'⟩
  · have hscope := h.scopes hj
    have hsame := hid.eq_iff hle hj
    rw [Store.define, Store.define, Array.getElem?_modify,
      Array.getElem?_modify]
    by_cases hthere : id = j
    · rw [if_pos hthere, if_pos (hsame.1 hthere)]
      generalize s.scopes[j]? = scope at hscope ⊢
      generalize s'.scopes[j']? = scope' at hscope ⊢
      cases hscope with
      | none => exact .none
      | some hscope =>
          exact .some
            ⟨hscope.parent, Value.Alike.insert hscope.bindings name hvalue⟩
    · rw [if_neg hthere, if_neg (mt hsame.2 hthere)]
      exact hscope

theorem print (h : Again first second s s') (line : String) :
    Again first second (s.print line) (s'.print line) where
  size := h.size
  functions := h.functions
  output := by
    obtain ⟨text, hs, hs'⟩ := h.output
    refine ⟨text ++ line ++ "\n", ?_, ?_⟩
    · simp only [Store.print, hs, String.append_assoc]
    · simp only [Store.print, hs', String.append_assoc]
  scopes := h.scopes

end Again

theorem again_lawful (hsize : first.scopes.size ≤ second.scopes.size)
    (hfunctions : first.functions ≤ second.functions) :
    (again first second).Lawful where
  serials hm hn := Moved.eq_iff hfunctions hm hn
  lookup := by
    intro s s' id id' hstores hscope name
    rw [Correspondence.outcomes, Correspondence.values, again_functions]
    exact Again.lookup hstores hsize hscope name
  makeFunction := by
    intro s s' id id' hstores hscope parameters body
    refine .ok (Again.makeFunction hstores) again_persists
      (.function ⟨rfl, rfl, ?_, hscope⟩)
    obtain ⟨k, hs, hs'⟩ := Again.functions hstores
    rw [hs, hs']
    exact .fresh k
  addScope := by
    intro s s' id id' hstores hscope
    refine .ok (Again.addScope hstores hsize hscope) again_persists ?_
    obtain ⟨k, hs, hs'⟩ := Again.size hstores
    rw [hs, hs']
    exact .fresh k
  define := by
    intro s s' id id' v v' hstores hscope name hvalue
    rw [Correspondence.values, again_functions] at hvalue
    exact .ok (Again.define hstores hsize hscope name hvalue)
      again_persists trivial
  print hstores line := .ok (Again.print hstores line) again_persists trivial

theorem movedFunction_self {closure : Closure}
    (hserial : closure.serial < first.functions)
    (hscope : closure.scope < first.scopes.size) :
    MovedFunction first second closure closure :=
  ⟨rfl, rfl, .kept hserial, .kept hscope⟩

/-- Where scopes were only added, nothing has been done since. -/
theorem Again.start (hfirst : first.WellFormed) (hdated : first.Dated)
    (h : first.Untouched second) : Again first second first second := by
  refine ⟨⟨0, rfl, rfl⟩, ⟨0, rfl, rfl⟩, ⟨"", by simp, by simp⟩,
    fun {id id'} hid => ?_⟩
  cases hid with
  | fresh k =>
      rw [Array.getElem?_eq_none (Nat.le_add_right _ k),
        Array.getElem?_eq_none (Nat.le_add_right _ k)]
      exact .none
  | kept hid =>
      obtain ⟨scope, hscope⟩ : ∃ scope, first.scopes[id]? = some scope :=
        ⟨_, Array.getElem?_eq_getElem hid⟩
      rw [h id scope hscope, hscope]
      refine .some ⟨?_, List.forall₂_same.2 fun binding hbinding => ⟨rfl, ?_⟩⟩
      · cases hparent : scope.parent with
        | none => exact .none
        | some parent =>
            exact .some
              (.kept (Nat.lt_trans (hfirst.parents hscope hparent) hid))
      · refine binding.2.alike_self fun closure hclosure => ?_
        exact movedFunction_self (hdated hscope hbinding closure hclosure)
          (hfirst.bindings hscope hbinding closure hclosure)

end

end Store

namespace Eval

open Store (again again_lawful dated_lasting)

variable {limit : Nat} {store : Store} {callee : Value} {arguments : List Value}

/-- No call takes back functions. -/
theorem functions_le_apply (hstore : store.Dated) (hcallee : callee.Dated store)
    (harguments : ∀ argument ∈ arguments, argument.Dated store) :
    store.functions ≤
      ((apply (evaluator limit) callee arguments).after store).functions := by
  have hends :=
    dated_lasting.apply (dated_lasting.follows_eval limit limit) ⟨rfl, hstore⟩
      (Store.dated_values_iff.2 ⟨rfl, hcallee⟩)
      (List.forall₂_same.2 fun argument hmem =>
      Store.dated_values_iff.2 ⟨rfl, harguments argument hmem⟩)
  rw [EvalM.after]
  cases hrun : apply (evaluator limit) callee arguments store with
  | ok value after =>
      rw [evaluator] at hrun
      rw [hrun] at hends
      cases hends with
      | ok _ hpersists _ => exact Store.functions_le_of_persists hpersists
  | error fault after =>
      rw [evaluator] at hrun
      rw [hrun] at hends
      cases hends with
      | error _ _ hpersists => exact Store.functions_le_of_persists hpersists

/-- The second of two calls does what the first one did. -/
theorem ends_again (hstore : store.WellFormed) (hdated : store.Dated)
    (hcallee : callee.Allocated store ∧ callee.Dated store)
    (harguments : ∀ argument ∈ arguments, argument.Allocated store ∧
      argument.Dated store) :
    let call := apply (evaluator limit) callee arguments
    (again store (call.after store)).Ends store (call.after store)
      (again store (call.after store)).values (call store)
      (call (call.after store)) := by
  intro call
  have huntouched : store.Untouched (call.after store) :=
    (contained_eval limit limit).untouched_apply callee arguments store
  have hlawful := again_lawful huntouched.size_le
    (functions_le_apply hdated hcallee.2 fun argument hmem =>
      (harguments argument hmem).2)
  have hvalues {value : Value} (hvalue : value.Allocated store ∧
      value.Dated store) : (again store (call.after store)).values store
      (call.after store) value value := by
    rw [Correspondence.values, Store.again_functions]
    exact value.alike_self fun closure hclosure =>
      Store.movedFunction_self (hvalue.2 closure hclosure)
        (hvalue.1 closure hclosure)
  exact hlawful.apply (hlawful.follows_eval limit limit)
    (.start hstore hdated huntouched) (hvalues hcallee)
    (List.forall₂_same.2 fun argument hmem =>
      hvalues (harguments argument hmem))

end Eval

namespace Session

/-- Every function in the value is there: in one of the values at hand, or in a
binding. -/
def Present (session : Session) (held : List Value) (value : Value) : Prop :=
  ∀ closure, value.Holds closure → (∃ other ∈ held, other.Holds closure) ∨
    ∃ (id : ScopeId) (scope : Scope) (binding : String × Value),
      session.store.scopes[id]? = some scope ∧ binding ∈ scope.bindings ∧
      binding.2.Holds closure

/-- What is there was allocated and made before. -/
theorem known_of_turns {limit : Nat} {session : Session} {held : List Value}
    (h : Relation.ReflTransGen Turn (start limit, []) (session, held)) :
    session.store.WellFormed ∧ session.store.Dated ∧
      ∀ value, session.Present held value →
      value.Allocated session.store ∧ value.Dated session.store := by
  have hsound := Sound.turns h (Sound.start limit)
  have hstart :=
    Fits.start Store.dated_lasting
      ⟨rfl, fun _ _ _ hscope => nomatch hscope⟩ limit
  have hfits := Fits.turns Store.dated_lasting h hstart
  refine ⟨hsound.store, hfits.stores.2, fun value hvalue => ⟨?_, ?_⟩⟩
  · intro closure hclosure
    rcases hvalue closure hclosure with
      ⟨other, hother, hholds⟩ | ⟨_, _, _, hscope, hbinding, hholds⟩
    · exact hsound.handles (.function hother hholds)
    · exact hsound.store.bindings hscope hbinding closure hholds
  · intro closure hclosure
    rcases hvalue closure hclosure with
      ⟨other, hother, hholds⟩ | ⟨_, _, _, hscope, hbinding, hholds⟩
    · exact (Store.dated_values_iff.1 (hfits.values hother)).2 closure hholds
    · exact hfits.stores.2 hscope hbinding closure hholds

/-- Whatever has been done with a fresh session, a call that is made twice
prints the same text both times, and it ends both times with the same fault or
with values that are printed alike.  The values are equal if no function in the
first of them was made by the call. -/
theorem apply_twice {limit : Nat} {session : Session} {held : List Value}
    (h : Relation.ReflTransGen Turn (start limit, []) (session, held))
    {callee : Value} {arguments : List Value}
    (hcallee : session.Present held callee)
    (harguments : ∀ argument ∈ arguments, session.Present held argument) :
    let first := session.apply callee arguments
    let second := first.2.apply callee arguments
    (∃ text, first.2.store.output = session.store.output ++ text ∧
      second.2.store.output = first.2.store.output ++ text) ∧
    ((∃ fault, first.1 = .error fault ∧ second.1 = .error fault) ∨
      ∃ value value', first.1 = .ok value ∧ second.1 = .ok value' ∧
        value.inspect = value'.inspect ∧
        (value.Dated session.store → (value == value') = true)) := by
  intro first second
  obtain ⟨hstore, hdated, hknown⟩ := known_of_turns h
  let call := Eval.apply (Eval.evaluator session.limit) callee arguments
  have hends : (Store.again session.store (call.after session.store)).Ends
      session.store (call.after session.store) _ (call session.store)
      (call (call.after session.store)) :=
    Eval.ends_again hstore hdated (hknown callee hcallee) fun argument hmem =>
      hknown argument (harguments argument hmem)
  -- The second call is made in the store that the first one leaves.
  have hsecond : second =
      ({ session with store := call.after session.store } : Session).perform
        call := by
    change (session.perform call).2.apply callee arguments = _
    rw [perform_snd]
    rfl
  have hfirst : first = session.perform call := rfl
  rw [Session.perform] at hfirst hsecond
  rw [hfirst, hsecond]
  generalize hlater : call.after session.store = later at hends
  generalize call later = result' at hends
  generalize hresult : call session.store = result at hends
  rw [EvalM.after, hresult] at hlater
  cases hends with
  | error fault hstores _ =>
      obtain rfl := hlater
      obtain ⟨text, htext, htext'⟩ := Store.Again.output hstores
      exact ⟨⟨text, htext, htext'⟩, Or.inl ⟨fault, rfl, rfl⟩⟩
  | ok hstores _ hvalue =>
      obtain rfl := hlater
      obtain ⟨text, htext, htext'⟩ := Store.Again.output hstores
      refine ⟨⟨text, htext, htext'⟩,
        Or.inr ⟨_, _, rfl, rfl, ?_, fun hold => ?_⟩⟩
      · exact hvalue.inspect_eq fun _ _ hc => hc.inspect
      · exact hvalue.same_of_serials fun c d hc hmoved =>
          hmoved.serial.eq_of_lt (hold c hc)

/-- A function that makes a new function in every call. -/
theorem apply_twice_fresh_function :
    let body : Block := [.expression (.function [] [.expression (.integer 1)])]
    let session := ((start 8).program [.binding "f" (.function [] body)]).2
    let callee : Value := .function ⟨0, [], body, 0⟩
    let first := session.apply callee []
    let second := first.2.apply callee []
    session.Present [.null] callee ∧ ∃ value value', first.1 = .ok value ∧
      second.1 = .ok value' ∧ value.inspect = value'.inspect ∧
      (value == value') = false := by
  intro body session callee first second
  have hturns : Relation.ReflTransGen Turn (start 8, []) (session, [.null]) :=
    .single (.program [.binding "f" (.function [] body)])
  have hcallee : session.Present [.null] callee := by
    intro closure hclosure
    refine Or.inr ⟨0, ⟨[("f", callee)], none⟩, ("f", callee), rfl, ?_, hclosure⟩
    exact List.mem_singleton.2 rfl
  have harguments : ∀ argument ∈ ([] : List Value),
      session.Present [.null] argument := nofun
  obtain ⟨-, ⟨fault, hfault, -⟩ |
      ⟨value, value', hvalue, hvalue', hinspect, -⟩⟩ :=
    apply_twice hturns hcallee harguments
  · cases hfault
  · refine ⟨hcallee, value, value', hvalue, hvalue', hinspect, ?_⟩
    cases hvalue
    cases hvalue'
    rfl

end Session

end Scriptlet
