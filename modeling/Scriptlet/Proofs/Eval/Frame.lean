/-
What a run leaves alone.  A call changes none of the scopes that were there
before it; everything else that is run changes at most the scope it runs in, and
there only the names that its own `let`s bind.  It does not matter how the run
ends.
-/
import Scriptlet.Proofs.Eval.Lockstep

namespace Scriptlet

namespace Store

/-- Every scope is as it was before. -/
def Untouched (before after : Store) : Prop :=
  ∀ (id : ScopeId) (s : Scope), before.scopes[id]? = some s →
    after.scopes[id]? = some s

/-- Every scope is as it was before, but the given names may be bound anew in
one of them. -/
structure Frame (scope : ScopeId) (names : List String) (before after : Store) :
    Prop where
  others {id : ScopeId} {s : Scope} (hid : id ≠ scope)
    (hscope : before.scopes[id]? = some s) : after.scopes[id]? = some s
  own {s : Scope} (hscope : before.scopes[scope]? = some s) :
    ∃ s' : Scope, after.scopes[scope]? = some s' ∧ s'.parent = s.parent ∧
      ∀ name, name ∉ names → s'.bindings.find? name = s.bindings.find? name

variable {scope : ScopeId} {names : List String} {first second third : Store}

theorem Untouched.of_eq (h : second.scopes = first.scopes) :
    first.Untouched second := by
  intro id s hscope
  rw [h]
  exact hscope

theorem Untouched.trans (h : first.Untouched second)
    (h' : second.Untouched third) : first.Untouched third :=
  fun id s hscope => h' id s (h id s hscope)

theorem Untouched.frame (h : first.Untouched second) :
    first.Frame scope names second where
  others _ hscope := h _ _ hscope
  own hscope := ⟨_, h _ _ hscope, rfl, fun _ _ => rfl⟩

theorem Frame.trans (h : first.Frame scope names second)
    (h' : second.Frame scope names third) : first.Frame scope names third where
  others hid hscope := h'.others hid (h.others hid hscope)
  own hscope := by
    obtain ⟨s', hs', hparent, hbindings⟩ := h.own hscope
    obtain ⟨s'', hs'', hparent', hbindings'⟩ := h'.own hs'
    refine ⟨s'', hs'', hparent'.trans hparent, ?_⟩
    intro name hname
    rw [hbindings' name hname, hbindings name hname]

theorem untouched_addScope (store : Store) (parent : Option ScopeId) :
    store.Untouched (store.addScope parent).2 := by
  intro id s hscope
  obtain ⟨hid, -⟩ := Array.getElem?_eq_some_iff.1 hscope
  rw [addScope, Array.getElem?_push, if_neg (Nat.ne_of_lt hid)]
  exact hscope

/-- What is only done in a new scope leaves the others alone. -/
theorem Frame.untouched {store after : Store} {parent : Option ScopeId}
    (h : (store.addScope parent).2.Frame
      (store.addScope parent).1 names after) :
    store.Untouched after := by
  intro id s hscope
  obtain ⟨hid, -⟩ := Array.getElem?_eq_some_iff.1 hscope
  exact h.others (Nat.ne_of_lt hid)
    (store.untouched_addScope parent id s hscope)

theorem frame_define (store : Store) {name : String} (hname : name ∈ names)
    (value : Value) :
    store.Frame scope names (store.define scope name value) where
  others hid hscope := by
    rw [define, Array.getElem?_modify, if_neg (Ne.symm hid)]
    exact hscope
  own := by
    intro s hscope
    refine ⟨{ s with bindings := s.bindings.insert name value }, ?_, rfl, ?_⟩
    · rw [define, Array.getElem?_modify, if_pos rfl, hscope]
      rfl
    · intro other hother
      have hne : other ≠ name := fun heq => hother (heq ▸ hname)
      exact Table.find?_insert_of_ne value s.bindings hne

end Store

theorem lockstep_untouched :
    Lockstep fun _ run _ => run.Leads Store.Untouched :=
  lockstep_leads (fun _ => .of_eq rfl) Store.Untouched.trans
    (fun _ _ _ _ => .of_eq rfl) (fun _ _ => .of_eq rfl)

theorem lockstep_frame (scope : ScopeId) (names : List String) :
    Lockstep fun _ run _ => run.Leads (Store.Frame scope names) :=
  lockstep_leads (fun _ => Store.Untouched.frame (.of_eq rfl)) Store.Frame.trans
    (fun _ _ _ _ => Store.Untouched.frame (.of_eq rfl))
    (fun _ _ => Store.Untouched.frame (.of_eq rfl))

namespace Eval

/-- The evaluator changes at most the scope it is run in, and there only names
that the expression binds. -/
def Contained (eval : Evaluator) : Prop :=
  ∀ (scope : ScopeId) (names : List String) (e : Expr), e.binds ⊆ names →
    (eval scope e).Leads (Store.Frame scope names)

section

variable {eval : Evaluator}

theorem Contained.runsAlike (h : Contained eval) (scope : ScopeId)
    (names : List String) :
    RunsAlike (fun _ run _ => run.Leads (Store.Frame scope names)) scope names
      eval eval where
  toLockstep := lockstep_frame scope names
  define hname value store := store.frame_define hname value
  eval hbinds := h scope names _ hbinds

theorem Contained.untouched_callClosure (h : Contained eval) (closure : Closure)
    (arguments : List Value) :
    (callClosure eval closure arguments).Leads Store.Untouched := by
  intro store
  by_cases hlength : arguments.length = closure.parameters.length
  · rw [callClosure_eq_callIn eval hlength]
    -- All that follows is done in the new scope, which is none of the old ones.
    let scope := (store.addScope (some closure.scope)).1
    let names := closure.parameters ++ bindsStatements closure.body
    have hcall :=
      (h.runsAlike scope names).callIn arguments (List.subset_append_left _ _)
        (List.subset_append_right _ _)
    exact (hcall (store.addScope (some closure.scope)).2).untouched
  · rw [callClosure_eq_throw eval hlength]
    exact .of_eq rfl

theorem Contained.untouched_apply (h : Contained eval) (callee : Value)
    (arguments : List Value) :
    (apply eval callee arguments).Leads Store.Untouched := by
  cases callee with
  | function closure => exact h.untouched_callClosure closure arguments
  | builtin builtin => exact lockstep_untouched.call builtin arguments
  | _ => exact lockstep_untouched.throw _

theorem contained_eval (limit levels : Nat) :
    Contained (Expr.eval limit levels) := by
  induction levels with
  | zero => exact fun scope names e _ => (lockstep_frame scope names).throw _
  | succ levels ih =>
      intro scope names e hbinds
      refine (ih.runsAlike scope names).step ?_ hbinds
      intro closure arguments store
      exact (ih.untouched_callClosure closure arguments store).frame

end

/-- However a run ends, the scopes that were there before it are unchanged: all
of them after a call, and all but the one that was worked in after anything
else.  That one keeps its parent and the values of all names but those bound in
it by `let`s of what was run. -/
theorem scopes_unchanged (limit levels : Nat) (store : Store) :
    (∀ (callee : Value) (arguments : List Value),
        store.Untouched
          ((apply (Expr.eval limit levels) callee arguments).after store)) ∧
      ∀ scope : ScopeId,
        (∀ e : Expr,
          store.Frame scope e.binds
            ((Expr.eval limit levels scope e).after store)) ∧
        (∀ s : Statement,
          store.Frame scope s.binds
            ((statement (Expr.eval limit levels) scope s).after store)) ∧
        (∀ body : Block, store.Frame scope (bindsStatements body)
          ((block (Expr.eval limit levels) scope body).after store)) ∧
        ∀ source : Program,
          store.Frame scope (bindsStatements source)
            (program limit scope source store).2 := by
  have hcontained := contained_eval limit levels
  constructor
  · intro callee arguments
    exact hcontained.untouched_apply callee arguments store
  · intro scope
    refine ⟨?_, ?_, ?_, ?_⟩
    · intro e
      exact hcontained scope e.binds e (List.Subset.refl _) store
    · intro s
      exact (hcontained.runsAlike scope s.binds).statement s
        (List.Subset.refl _) store
    · intro body
      exact (hcontained.runsAlike scope _).statements none body
        (List.Subset.refl _) store
    · intro source
      have hruns :=
        (contained_eval limit limit).runsAlike scope (bindsStatements source)
      rw [program_snd]
      exact hruns.statements none source (List.Subset.refl _) store

end Eval

end Scriptlet
